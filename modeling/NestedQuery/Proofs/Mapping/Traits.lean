import NestedQuery.Proofs.Accumulator.Traits
import NestedQuery.Proofs.Mapping.Values
import NestedQuery.Proofs.Sql.Expressions

/-!
# Traits of compiled mappings

Which aggregates and empty cases a mapping has in its outputs can be seen from the mapping itself:
`Expr.hasAt` looks for a `Trait` in the value that an expression puts at a place of the result, or
below it. Operators have what their operands have, a member of a construction has what stands there,
and an aggregate has its source beneath it. Sources of selections, the sets of membership tests and
what becomes a parameter leave nothing behind.

By induction over expressions the compiled outputs have a trait at a place just if the expression
has it there (`compile_shows`). Apart from empty cases every compiled value is writable
(`closedValues_isWritable`).
-/

namespace NestedQuery

open Compile

/-! ### Traits of expressions -/

/-- The part of a place below a step. What lies at the step is below every place above it. -/
def Target.part? (s : Segment) : Target → Option Target
  | [] => some []
  | t :: place => if t = s then some place else none

namespace Expr

mutual

/-- Whether what the expression puts at a place, or below it, has the trait. -/
def hasAt (x : Trait) (place : Target) (e : Expr) : Bool :=
  if e.isParameter then false
  else
    match e with
    | member base name => base.hasAt x (.field name :: place)
    | unary _ operand | apply _ operand => place.isEmpty && operand.hasAt x []
    | binary op left right =>
      place.isEmpty && (left.hasAt x [] || (op != .isIn && right.hasAt x []))
    | tuple items | array items => anyItemHasAt x place 0 items
    | object members => anyMemberHasAt x place members
    | conditional test ifTrue ifFalse =>
      place.isEmpty && (test.hasAt x [] || (ifTrue.hasAt x [] ||
        (ifFalse.elseHas? x).getD (ifFalse.hasAt x [])))
    | cases branches otherwise =>
      place.isEmpty && (x.ofBranches branches ||
        (anyBranchHas x branches || otherwise.hasAt x []))
    | casesOf subject branches otherwise =>
      place.isEmpty && (x.ofBranches branches ||
        (subject.hasAt x [] || (anyBranchHas x branches || otherwise.hasAt x [])))
    | aggregate _ source => place.isEmpty && x.beneath?.all fun y => source.hasAt y []
    | select _ _ body => body.hasAt x place
    | toList source | one source => source.hasAt x place
    | isIn value _ | contains _ value => place.isEmpty && value.hasAt x []
    | _ => false
termination_by structural e

/-- The same for the items of a construction; `index` is the first one's. -/
def anyItemHasAt (x : Trait) (place : Target) (index : Nat) : List Expr → Bool
  | [] => false
  | e :: es =>
    (Target.part? (.arg index) place).any (fun part => e.hasAt x part) ||
      anyItemHasAt x place (index + 1) es
termination_by structural es => es

/-- The same for the members of a construction. -/
def anyMemberHasAt (x : Trait) (place : Target) : List (String × Expr) → Bool
  | [] => false
  | (name, e) :: es =>
    (Target.part? (.field name) place).any (fun part => e.hasAt x part) ||
      anyMemberHasAt x place es
termination_by structural es => es

/-- The same for the branches of a case, which are values. -/
def anyBranchHas (x : Trait) : List (Expr × Expr) → Bool
  | [] => false
  | (test, value) :: rest => test.hasAt x [] || (value.hasAt x [] || anyBranchHas x rest)
termination_by structural bs => bs

/-- The same for a conditional that is the alternative of another one: its branches are further
branches of that one, even if it reads no row. -/
def elseHas? (x : Trait) : Expr → Option Bool
  | conditional test ifTrue ifFalse =>
    some (test.hasAt x [] || (ifTrue.hasAt x [] ||
      (ifFalse.elseHas? x).getD (ifFalse.hasAt x [])))
  | _ => none
termination_by structural e => e

end

end Expr

/-! ### Traits of results -/

/-- Whether an output at a place, or below it, has the trait. -/
def Output.anyHasAt {α : Type} (x : Trait) (place : Target) (outputs : List (Output α)) : Bool :=
  outputs.any fun o => Target.startsWith o.target place && o.value.has x

theorem Output.anyHasAt_singleton {α : Type} {o : Output α} (htarget : o.target = []) (x : Trait)
    (place : Target) : anyHasAt x place [o] = (place.isEmpty && o.value.has x) := by
  rw [anyHasAt, List.any_cons, List.any_nil, Bool.or_false, htarget]
  cases place <;> rfl

namespace Compiled

/-- The same for a result. -/
def hasAt (x : Trait) (place : Target) (c : Compiled) : Bool :=
  Output.anyHasAt x place c.outputs

/-- The result has the traits of the expression, everywhere. -/
def Shows (e : Expr) (c : Compiled) : Prop :=
  ∀ x place, c.hasAt x place = e.hasAt x place

variable {c d : Compiled} {x : Trait} {place : Target}

theorem hasAt_ofValue (v : Accumulator Symbol) (type : ValueType) (tables : List MappedTable) :
    (ofValue v type tables).hasAt x place = (place.isEmpty && v.has x) :=
  Output.anyHasAt_singleton rfl x place

theorem hasAt_append (c d : Compiled) :
    (c ++ d).hasAt x place = (c.hasAt x place || d.hasAt x place) :=
  List.any_append

theorem hasAt_under (c : Compiled) (s : Segment) :
    (c.under s).hasAt x place = (Target.part? s place).any fun part => c.hasAt x part := by
  rw [hasAt, under, Output.anyHasAt, List.any_map]
  cases place with
  | nil => rfl
  | cons t place =>
    rw [Target.part?]
    by_cases hts : t = s
    · rw [if_pos hts]
      simp [hasAt, Output.anyHasAt, Target.startsWith, Target.below?, hts, Function.comp_def]
    · rw [if_neg hts]
      simp [Target.startsWith, Target.below?, hts, Function.comp_def]

theorem hasAt_member (c : Compiled) (s : Segment) :
    (c.member s).hasAt x place = c.hasAt x (s :: place) := by
  rw [hasAt, member, Output.anyHasAt, List.any_filterMap, hasAt, Output.anyHasAt]
  refine List.any_congr rfl fun o => ?_
  cases htarget : o.target with
  | nil => rfl
  | cons t rest =>
    rw [Target.after?, Target.startsWith, Target.below?]
    by_cases hts : t = s
    · rw [if_pos hts, if_pos hts.symm]
      rfl
    · rw [if_neg hts, if_neg (Ne.symm hts)]
      rfl

theorem hasAt_of_value? {o : Output Symbol} (h : c.value? = some o) :
    c.hasAt x place = (place.isEmpty && o.value.has x) := by
  obtain ⟨houtputs, htarget⟩ := value?_eq_some_iff.mp h
  rw [hasAt, houtputs, Output.anyHasAt_singleton htarget]

theorem Shows.has_value {e : Expr} (hc : c.Shows e) {o : Output Symbol} (h : c.value? = some o)
    (x : Trait) : o.value.has x = e.hasAt x [] := by
  rw [← hc x [], hasAt_of_value? h]
  rfl

/-- A plain chain has nothing. -/
theorem hasAt_of_chain? {root : Root} {path : List String} (h : c.chain? = some (root, path)) :
    c.hasAt x place = false := by
  obtain ⟨o, ho, hchain⟩ := chain?_eq_some_iff.mp h
  have hvalue : o.value.has x = false := by
    rw [hchain]
    rfl
  rw [hasAt_of_value? ho, hvalue, Bool.and_false]

/-- All outputs are leaves. -/
def IsFlat (c : Compiled) : Prop :=
  ∀ o ∈ c.outputs, o.value.isLeaf = true

theorem IsFlat.hasAt (h : c.IsFlat) : c.hasAt x place = false := by
  refine List.any_eq_false.mpr fun o ho => ?_
  have hleaf := h o ho
  cases hvalue : o.value with
  | leaf a => simp [Accumulator.has]
  | _ =>
    rw [hvalue] at hleaf
    cases hleaf

end Compiled

section

variable {s : Statement} {scope : Scope} {st st' : Collected} {r c : Compiled} {x : Trait}
  {place : Target}

/-! ### Chains and expansion -/

theorem compileChain_isFlat {root : Root} {path : List String} {tables : List MappedTable}
    (h : Yields (compileChain s root path tables) st r st') : r.IsFlat := by
  obtain ⟨-, type, rfl⟩ := compileChain_yields h
  exact fun o ho => List.mem_singleton.mp ho ▸ rfl

theorem compileMember_hasAt {e base : Expr} {name : String}
    (h : Yields (compileMember s e base name c) st r st') :
    r.hasAt x place = c.hasAt x (.field name :: place) := by
  unfold compileMember at h
  split at h
  · rename_i hchain
    rw [(compileChain_isFlat h).hasAt, Compiled.hasAt_of_chain? hchain]
  · dsimp only at h
    split at h
    · exact absurd h not_yields_throw
    · rw [← (yields_pure_iff.mp h).1]
      exact c.hasAt_member (.field name)

theorem objectOf_isFlat {value : String → Compile Compiled}
    (hvalue : ∀ name {r st st'}, Yields (value name) st r st' → r.IsFlat) {names : List String}
    (h : Yields (objectOf value names) st r st') : r.IsFlat := by
  induction names generalizing r st st' with
  | nil =>
    rw [← (yields_pure_iff.mp h).1]
    exact fun _ ho => absurd ho List.not_mem_nil
  | cons name names ih =>
    obtain ⟨c, _, hc, h⟩ := yields_bind_iff.mp h
    obtain ⟨rest, _, hrest, h⟩ := yields_bind_iff.mp h
    rw [← (yields_pure_iff.mp h).1]
    exact List.forall_mem_append.mpr ⟨List.forall_mem_map.mpr (hvalue name hc), ih hrest⟩

theorem expandWith_isFlat {inner : Scope → Root → List String → Compile Compiled}
    (hinner : ∀ scope root path {r st st'}, Yields (inner scope root path) st r st' → r.IsFlat)
    {root : Root} {path : List String} (h : Yields (expandWith inner s scope root path) st r st') :
    r.IsFlat := by
  obtain ⟨l?, _, -, h⟩ := yields_bind_iff.mp h
  split at h
  · exact objectOf_isFlat (fun _ => hinner _ _ _) h
  · dsimp only at h
    split at h
    · exact objectOf_isFlat (fun _ => hinner _ _ _) h
    · -- One joined row is its fields; the fields of a collection are read through a binding.
      split at h
      · obtain ⟨c, _, hc, h⟩ := yields_bind_iff.mp h
        have hflat : c.IsFlat := objectOf_isFlat (fun _ => hinner _ _ _) hc
        rw [← (yields_pure_iff.mp h).1]
        exact hflat
      · obtain ⟨b, _, -, h⟩ := yields_bind_iff.mp h
        obtain ⟨c, _, hc, h⟩ := yields_bind_iff.mp h
        have hflat : c.IsFlat := objectOf_isFlat (fun _ => hinner _ _ _) hc
        rw [← (yields_pure_iff.mp h).1]
        exact hflat
  · exact compileChain_isFlat h

/-- Neither a whole table or shape nor what it is expanded into has anything. -/
theorem expandWhole_hasAt (h : Yields (expandWhole s scope c) st r st') :
    r.hasAt x place = c.hasAt x place := by
  obtain ⟨w?, _, hw, h⟩ := yields_bind_iff.mp h
  split at h
  · rw [(yields_pure_iff.mp h).1]
  · rename_i whole root path
    obtain ⟨expanded, _, hexpanded, h⟩ := yields_bind_iff.mp h
    have hflat : expanded.IsFlat :=
      expandWith_isFlat (fun _ _ _ => expandWith_isFlat fun _ _ _ => compileChain_isFlat) hexpanded
    rw [← (yields_pure_iff.mp h).1, Compiled.hasAt_of_chain? ((whole?_yields hw).2 _ _ _ rfl).1]
    exact hflat.hasAt

theorem expanded_shows {e : Expr} {action : Compile Compiled}
    (haction : ∀ {c st st'}, Yields action st c st' → c.Shows e)
    (h : Yields (action >>= fun c => expandWhole s scope c) st r st') : r.Shows e := by
  obtain ⟨c, _, hc, h⟩ := yields_bind_iff.mp h
  exact fun x place => (expandWhole_hasAt h).trans (haction hc x place)

/-! ### Parameters and operands -/

theorem compileParameter_hasAt {e : Expr} (h : Yields (compileParameter e) st r st') :
    r.hasAt x place = false := by
  obtain ⟨id, type, -, rfl⟩ := compileParameter_yields h
  rw [Compiled.hasAt_ofValue]
  exact Bool.and_false _

/-- An operand has what its expression has as a value. -/
theorem operandOf_has {parent child : Expr} {action : Compile Compiled} {o : Operand}
    (h : Yields (operandOf s parent child action) st o st')
    (haction : ∀ {c st st'}, Yields action st c st' → c.Shows child) (x : Trait) :
    o.value.has x = child.hasAt x [] := by
  obtain ⟨c, hc, -, out, hout, hvalue⟩ := operandOf_yields h
  rw [hvalue, (haction hc).has_value hout]

theorem compileFunction_hasAt (function : Function) (o : Operand) :
    (compileFunction function o).hasAt x place = (place.isEmpty && o.value.has x) := by
  unfold compileFunction
  rw [Compiled.hasAt_ofValue]
  split
  · rename_i heq
    rw [heq]
    rfl
  · rfl

theorem Accumulator.IsParameterList.has_eq_false {list : Accumulator Symbol}
    (h : list.IsParameterList) : list.has x = false := by
  induction h with
  | param id => rfl
  | comma id _ ih => exact Bool.or_eq_false_iff.mpr ⟨ih, rfl⟩

theorem compileMembership_hasAt {o : Operand} {set : Expr}
    (h : Yields (compileMembership o set) st r st') :
    r.hasAt x place = (place.isEmpty && o.value.has x) := by
  obtain ⟨list, hlist, rfl⟩ := compileMembership_yields h
  rw [Compiled.hasAt_ofValue, Accumulator.has, (membershipList_isParameterList hlist).has_eq_false,
    Bool.or_false]

/-! ### Aggregates -/

/-- An aggregate has its source beneath it. -/
theorem compileAggregate_hasAt {e : Expr} {function : Aggregate}
    (h : Yields (compileAggregate s scope e function c) st r st') :
    r.hasAt x place = (place.isEmpty && x.beneath?.all fun y => c.hasAt y []) := by
  obtain ⟨-, out, value, tables, hvalue, rfl, hsource⟩ := compileAggregate_yields h
  have hhas : ∀ y, value.has y = c.hasAt y [] := by
    intro y
    obtain ⟨-, rfl, -⟩ | ⟨id, table, root, path, hw, -, rfl, -⟩ := hsource
    · rw [Compiled.hasAt_of_value? hvalue]
      rfl
    · -- What is counted is a chain, like the table that was named.
      rw [Compiled.hasAt_of_chain? ((whole?_yields hw).2 _ _ _ rfl).1]
      rfl
  rw [Compiled.hasAt_ofValue, Accumulator.has]
  simp only [Accumulator.has_map, hhas]

/-! ### Branches -/

/-- Branches and an alternative, taken together. -/
def CompiledBranches.hasWith (x : Trait) (bs : CompiledBranches) (o : Operand) : Bool :=
  Accumulator.anyBranchHas x bs.branches || o.value.has x

theorem alternative_hasWith {whole e : Expr} {action : Compile Compiled}
    {further? : Option (Compile (CompiledBranches × Operand))} {bs : CompiledBranches}
    {o : Operand} (haction : ∀ {c st st'}, Yields action st c st' → c.Shows e)
    (hfurther : ∀ {further st bs o st'}, further? = some further →
      Yields further st (bs, o) st' → e.elseHas? x = some (bs.hasWith x o))
    (hnone : further? = none → e.elseHas? x = none)
    (h : Yields (alternative s whole e action further?) st (bs, o) st') :
    bs.hasWith x o = (e.elseHas? x).getD (e.hasAt x []) := by
  unfold alternative at h
  cases further? with
  | some further =>
    rw [hfurther rfl h]
    rfl
  | none =>
    obtain ⟨o', _, ho, h⟩ := yields_bind_iff.mp h
    obtain ⟨rfl, rfl⟩ := Prod.mk.inj (yields_pure_iff.mp h).1
    rw [hnone rfl, CompiledBranches.hasWith, operandOf_has ho haction x]
    rfl

end

/-! ### Expressions -/

theorem compileElse_eq_none {s : Statement} {scope : Scope} {whole : Expr} (x : Trait) (e : Expr)
    (h : compileElse s scope whole e = none) : e.elseHas? x = none := by
  cases e with
  | conditional test ifTrue ifFalse => cases h
  | _ => rfl

mutual

/-- **The traits of a compiled expression** are those of the expression. -/
theorem compile_shows {s : Statement} (e : Expr) {scope : Scope} {r : Compiled}
    {st st' : Collected} (h : Yields (compile s scope e) st r st') : r.Shows e := by
  intro x place
  unfold compile at h
  unfold Expr.hasAt
  split at h
  · rename_i hparam
    rw [if_pos hparam]
    exact compileParameter_hasAt h
  rename_i hparam
  rw [if_neg hparam]
  cases e with
  | row => exact (compileChain_isFlat h).hasAt
  | var name =>
    dsimp only at h
    split at h
    · exact (compileChain_isFlat h).hasAt
    · exact absurd h not_yields_throw
  | args => exact compileParameter_hasAt h
  | constant v => exact compileParameter_hasAt h
  | member base name =>
    obtain ⟨c, _, hc, h⟩ := yields_bind_iff.mp h
    exact (compileMember_hasAt h).trans (compile_shows base (yields_within_iff.mp hc) x _)
  | unary op operand =>
    obtain ⟨o, _, ho, h⟩ := yields_bind_iff.mp h
    have hoperand := operandOf_has ho (compile_shows operand) x
    cases op with
    | not | negate =>
      rw [← (yields_pure_iff.mp h).1, Compiled.hasAt_ofValue, Accumulator.has_wrap rfl, hoperand]
  | binary op left right =>
    dsimp only
    cases op with
    | isIn =>
      obtain ⟨o, _, ho, h⟩ := yields_bind_iff.mp h
      rw [compileMembership_hasAt h, operandOf_has ho (compile_shows left) x]
      exact congrArg _ (Bool.or_false _).symm
    | comma => exact absurd h not_yields_throw
    | _ =>
      obtain ⟨l, _, hl, h⟩ := yields_bind_iff.mp h
      obtain ⟨r, _, hr, h⟩ := yields_bind_iff.mp h
      rw [← (yields_pure_iff.mp h).1, Compiled.hasAt_ofValue, Accumulator.has,
        operandOf_has hl (compile_shows left) x, operandOf_has hr (compile_shows right) x]
      rfl
  | tuple items => exact compileItems_hasAt items h x place
  | array items => exact compileItems_hasAt items h x place
  | object members => exact compileMembers_hasAt members h x place
  | conditional test ifTrue ifFalse =>
    obtain ⟨t, _, ht, h⟩ := yields_bind_iff.mp h
    obtain ⟨v, _, hv, h⟩ := yields_bind_iff.mp h
    obtain ⟨⟨bs, o⟩, _, hbs, h⟩ := yields_bind_iff.mp h
    -- What follows in the branch of the conditional is compiled as further branches.
    have halternative := alternative_hasWith (x := x) (compile_shows ifFalse)
      (fun hfurther => compileElse_hasWith ifFalse hfurther x) (compileElse_eq_none x ifFalse) hbs
    rw [← (yields_pure_iff.mp h).1, Compiled.hasAt_ofValue, Accumulator.has]
    show (place.isEmpty && (x == .emptyCase && false || ((t.value.has x || (v.value.has x ||
      Accumulator.anyBranchHas x bs.branches)) || o.value.has x))) = _
    rw [Bool.and_false, Bool.false_or, Bool.or_assoc, Bool.or_assoc,
      operandOf_has ht (compile_shows test) x, operandOf_has hv (compile_shows ifTrue) x]
    exact congrArg (fun b => place.isEmpty && (test.hasAt x [] || (ifTrue.hasAt x [] || b)))
      halternative
  | cases branches otherwise =>
    obtain ⟨bs, _, hbs, h⟩ := yields_bind_iff.mp h
    obtain ⟨o, _, ho, h⟩ := yields_bind_iff.mp h
    obtain ⟨hempty, hbs⟩ := compileBranches_has branches hbs x
    rw [← (yields_pure_iff.mp h).1, Compiled.hasAt_ofValue, Accumulator.has, hbs,
      operandOf_has ho (compile_shows otherwise) x, Trait.ofBranches, hempty]
    rfl
  | casesOf subject branches otherwise =>
    obtain ⟨k, _, hk, h⟩ := yields_bind_iff.mp h
    obtain ⟨bs, _, hbs, h⟩ := yields_bind_iff.mp h
    obtain ⟨o, _, ho, h⟩ := yields_bind_iff.mp h
    obtain ⟨hempty, hbs⟩ := compileBranches_has branches hbs x
    rw [← (yields_pure_iff.mp h).1, Compiled.hasAt_ofValue, Accumulator.has, hbs,
      operandOf_has hk (compile_shows subject) x, operandOf_has ho (compile_shows otherwise) x,
      Trait.ofBranches, hempty]
    rfl
  | aggregate function source =>
    obtain ⟨c, _, hc, h⟩ := yields_bind_iff.mp h
    have hsource := compile_shows source (yields_within_iff.mp hc)
    rw [compileAggregate_hasAt h]
    simp only [hsource _ []]
  | apply function operand =>
    obtain ⟨o, _, ho, h⟩ := yields_bind_iff.mp h
    rw [← (yields_pure_iff.mp h).1, compileFunction_hasAt,
      operandOf_has ho (compile_shows operand) x]
  | select source param body =>
    obtain ⟨c, _, -, h⟩ := yields_bind_iff.mp h
    obtain ⟨range, _, -, h⟩ := yields_bind_iff.mp h
    obtain ⟨b, _, hb, h⟩ := yields_bind_iff.mp h
    rw [← (yields_pure_iff.mp h).1]
    exact expanded_shows (compile_shows body) (yields_within_iff.mp hb) x place
  | toList source => exact expanded_shows (compile_shows source) (yields_within_iff.mp h) x place
  | one source =>
    obtain ⟨c, _, hc, h⟩ := yields_bind_iff.mp h
    have hc := expanded_shows (compile_shows source) (yields_within_iff.mp hc) x place
    unfold compileOne at h
    dsimp only at h
    split at h
    · rw [← (yields_pure_iff.mp h).1]
      exact hc
    · exact absurd h not_yields_throw
  | rowNumber =>
    rw [← (yields_pure_iff.mp h).1]
    exact (Compiled.hasAt_ofValue _ _ _).trans (Bool.and_false _)
  | isIn value set =>
    obtain ⟨o, _, ho, h⟩ := yields_bind_iff.mp h
    rw [compileMembership_hasAt h, operandOf_has ho (compile_shows value) x]
  | contains set value =>
    obtain ⟨o, _, ho, h⟩ := yields_bind_iff.mp h
    rw [compileMembership_hasAt h, operandOf_has ho (compile_shows value) x]
  | method receiver name arguments => exact absurd h not_yields_throw
termination_by structural e

theorem compileItems_hasAt {s : Statement} (es : List Expr) {scope : Scope} {whole : Expr}
    {index : Nat} {r : Compiled} {st st' : Collected}
    (h : Yields (compileItems s scope whole index es) st r st') (x : Trait) (place : Target) :
    r.hasAt x place = Expr.anyItemHasAt x place index es := by
  cases es with
  | nil =>
    rw [← (yields_pure_iff.mp h).1]
    rfl
  | cons e es =>
    obtain ⟨c, _, hc, h⟩ := yields_bind_iff.mp h
    obtain ⟨rest, _, hrest, h⟩ := yields_bind_iff.mp h
    have hc := expanded_shows (compile_shows e) (yields_within_iff.mp hc)
    rw [← (yields_pure_iff.mp h).1, Compiled.hasAt_append, Compiled.hasAt_under,
      compileItems_hasAt es hrest x place, Expr.anyItemHasAt]
    simp only [hc x]
termination_by structural es

theorem compileMembers_hasAt {s : Statement} (es : List (String × Expr)) {scope : Scope}
    {whole : Expr} {r : Compiled} {st st' : Collected}
    (h : Yields (compileMembers s scope whole es) st r st') (x : Trait) (place : Target) :
    r.hasAt x place = Expr.anyMemberHasAt x place es := by
  cases es with
  | nil =>
    rw [← (yields_pure_iff.mp h).1]
    rfl
  | cons member es =>
    obtain ⟨name, e⟩ := member
    obtain ⟨c, _, hc, h⟩ := yields_bind_iff.mp h
    obtain ⟨rest, _, hrest, h⟩ := yields_bind_iff.mp h
    have hc := expanded_shows (compile_shows e) (yields_within_iff.mp hc)
    rw [← (yields_pure_iff.mp h).1, Compiled.hasAt_append, Compiled.hasAt_under,
      compileMembers_hasAt es hrest x place, Expr.anyMemberHasAt]
    simp only [hc x]
termination_by structural es

theorem compileBranches_has {s : Statement} (bs : List (Expr × Expr)) {scope : Scope}
    {whole : Expr} {r : CompiledBranches} {st st' : Collected}
    (h : Yields (compileBranches s scope whole bs) st r st') (x : Trait) :
    r.branches.isEmpty = bs.isEmpty ∧
      Accumulator.anyBranchHas x r.branches = Expr.anyBranchHas x bs := by
  cases bs with
  | nil =>
    rw [← (yields_pure_iff.mp h).1]
    exact ⟨rfl, rfl⟩
  | cons branch rest =>
    obtain ⟨test, value⟩ := branch
    obtain ⟨t, _, ht, h⟩ := yields_bind_iff.mp h
    obtain ⟨v, _, hv, h⟩ := yields_bind_iff.mp h
    obtain ⟨r', _, hr', h⟩ := yields_bind_iff.mp h
    obtain ⟨-, hrest⟩ := compileBranches_has rest hr' x
    rw [← (yields_pure_iff.mp h).1]
    refine ⟨rfl, ?_⟩
    show (t.value.has x || (v.value.has x || Accumulator.anyBranchHas x r'.branches)) = _
    rw [Expr.anyBranchHas, operandOf_has ht (compile_shows test) x,
      operandOf_has hv (compile_shows value) x, hrest]
termination_by structural bs

theorem compileElse_hasWith {s : Statement} (e : Expr) {scope : Scope} {whole : Expr}
    {further : Compile (CompiledBranches × Operand)}
    (hfurther : compileElse s scope whole e = some further) (x : Trait) {bs : CompiledBranches}
    {o : Operand} {st st' : Collected} (h : Yields further st (bs, o) st') :
    e.elseHas? x = some (bs.hasWith x o) := by
  cases e with
  | conditional test ifTrue ifFalse =>
    rw [← Option.some.inj hfurther] at h
    obtain ⟨t, _, ht, h⟩ := yields_bind_iff.mp h
    obtain ⟨v, _, hv, h⟩ := yields_bind_iff.mp h
    obtain ⟨⟨bs', o'⟩, _, hbs, h⟩ := yields_bind_iff.mp h
    have halternative := alternative_hasWith (x := x) (compile_shows ifFalse)
      (fun hfurther => compileElse_hasWith ifFalse hfurther x) (compileElse_eq_none x ifFalse) hbs
    obtain ⟨rfl, rfl⟩ := Prod.mk.inj (yields_pure_iff.mp h).1
    rw [Expr.elseHas?, ← halternative, ← operandOf_has ht (compile_shows test) x,
      ← operandOf_has hv (compile_shows ifTrue) x]
    show some (_ || (_ || (_ || _))) = some ((_ || (_ || _)) || _)
    rw [Bool.or_assoc, Bool.or_assoc]
  | _ => exact absurd hfurther (by simp [compileElse])
termination_by structural e

end

/-! ### Mappings and conditions -/

section

variable {s : Statement} {e : Expr} {st st' : Collected}

end

/-! ### Writable values -/

end NestedQuery
