import NestedQuery.Proofs.Expr.Construction
import NestedQuery.Proofs.Mapping.Scalars

/-!
# Compiled constructions

A mapping that puts values of the primary table together compiles to one output for each of these
values, at the target where the value stands, and has no table mapped for it
(`outputs_of_compileMapping`). Nothing else of its tuples, arrays and objects is compiled.
-/

namespace NestedQuery

open Compile

/-! ### Distinct names -/

mutual

/-- Whether the members of every object in a construction have different names. -/
def Expr.hasDistinctNames : Expr → Bool
  | .tuple items | .array items => Expr.allHaveDistinctNames items
  | .object members =>
    decide (members.map Prod.fst).Nodup && Expr.membersHaveDistinctNames members
  | _ => true
termination_by structural e => e

/-- Whether this holds of all items. -/
def Expr.allHaveDistinctNames : List Expr → Bool
  | [] => true
  | e :: es => e.hasDistinctNames && Expr.allHaveDistinctNames es
termination_by structural es => es

/-- Whether this holds of all members. -/
def Expr.membersHaveDistinctNames : List (String × Expr) → Bool
  | [] => true
  | (_, e) :: es => e.hasDistinctNames && Expr.membersHaveDistinctNames es
termination_by structural es => es

end

namespace Expr

theorem steps_memberParts (members : List (String × Expr)) :
    (memberParts members).map Prod.fst = members.map fun m => Segment.field m.1 := by
  induction members with
  | nil => rfl
  | cons m members ih =>
    obtain ⟨name, e⟩ := m
    rw [memberParts, List.map_cons, List.map_cons, ih]

theorem steps_itemParts (index : Nat) (items : List Expr) :
    (itemParts index items).map Prod.fst =
      (List.range' index items.length).map Segment.arg := by
  induction items generalizing index with
  | nil => rfl
  | cons e items ih =>
    rw [itemParts, List.map_cons, ih, List.length_cons, List.range'_succ, List.map_cons]

theorem stepsInOrder_memberParts {members : List (String × Expr)}
    (h : (members.map Prod.fst).Nodup) :
    Construction.StepsInOrder true ((memberParts members).map Prod.fst) := by
  rw [steps_memberParts]
  refine ⟨fun s hs => ?_, ?_, fun h => Bool.noConfusion h⟩
  · obtain ⟨m, -, rfl⟩ := List.mem_map.mp hs
    rfl
  · have hmap := h.map (f := Segment.field) fun m n hmn => Segment.field.inj hmn
    rwa [List.map_map] at hmap

theorem stepsInOrder_itemParts (index : Nat) (items : List Expr) :
    Construction.StepsInOrder false ((itemParts index items).map Prod.fst) := by
  rw [steps_itemParts]
  refine ⟨fun s hs => ?_, ?_, fun _ => ?_⟩
  · obtain ⟨i, -, rfl⟩ := List.mem_map.mp hs
    rfl
  · exact (List.nodup_range' ..).map fun i j hij => Segment.arg.inj hij
  · refine List.pairwise_map.mpr ((List.pairwise_lt_range' ..).imp fun hij => ?_)
    rw [Segment.compare, compareOfLessAndEq, if_pos hij]

mutual

/-- With different names, the parts of a mapping are in order. -/
theorem isOrdered_construction :
    (e : Expr) → e.hasDistinctNames = true → e.construction.IsOrdered
  | .tuple items, h => ⟨stepsInOrder_itemParts 0 items, areOrdered_itemParts items h 0⟩
  | .array items, h => ⟨stepsInOrder_itemParts 0 items, areOrdered_itemParts items h 0⟩
  | .object members, h => by
    rw [hasDistinctNames, Bool.and_eq_true, decide_eq_true_iff] at h
    exact ⟨stepsInOrder_memberParts h.1, areOrdered_memberParts members h.2⟩
  | .row, _ | .args, _ | .var _, _ | .constant _, _ | .member .., _ | .unary .., _
  | .binary .., _ | .conditional .., _ | .cases .., _ | .casesOf .., _ | .aggregate .., _
  | .apply .., _ | .select .., _ | .toList _, _ | .one _, _ | .rowNumber, _ | .isIn .., _
  | .contains .., _ | .method .., _ => trivial
termination_by structural e => e

theorem areOrdered_itemParts : (items : List Expr) → allHaveDistinctNames items = true →
    (index : Nat) → Construction.AreOrdered (itemParts index items)
  | [], _, _ => trivial
  | e :: es, h, index => by
    rw [allHaveDistinctNames, Bool.and_eq_true] at h
    exact ⟨isOrdered_construction e h.1, areOrdered_itemParts es h.2 (index + 1)⟩
termination_by structural items => items

theorem areOrdered_memberParts : (members : List (String × Expr)) →
    membersHaveDistinctNames members = true → Construction.AreOrdered (memberParts members)
  | [], _ => trivial
  | (_, e) :: es, h => by
    rw [membersHaveDistinctNames, Bool.and_eq_true] at h
    exact ⟨isOrdered_construction e h.1, areOrdered_memberParts es h.2⟩
termination_by structural members => members

end

end Expr

/-! ### Outputs -/

variable {s : Statement} {c c' : Collected} {r : Compiled}

/-- The output is what the value at a target compiles to. -/
def IsOutputOf (s : Statement) (leaf : Target × Expr) (o : Output Symbol) : Prop :=
  o.target = leaf.1 ∧ ∃ c c', Yields (compileMapping s leaf.2) c (.ofValue o.value o.type) c'

/-- The result has one output for each of the values, and no table. -/
def Compiled.Covers (s : Statement) (leaves : List (Target × Expr)) (r : Compiled) : Prop :=
  r.tables = [] ∧ List.Forall₂ (IsOutputOf s) leaves r.outputs

namespace Compiled.Covers

variable {leaves leaves' : List (Target × Expr)} {r' : Compiled}

theorem under (h : r.Covers s leaves) (step : Segment) :
    (r.under step).Covers s (leaves.map step.above) := by
  refine ⟨by rw [Compiled.under, h.1, List.map_nil], ?_⟩
  rw [Compiled.under, List.forall₂_map_left_iff, List.forall₂_map_right_iff]
  exact h.2.imp fun leaf o ho => ⟨congrArg (step :: ·) ho.1, ho.2⟩

theorem append (h : r.Covers s leaves) (h' : r'.Covers s leaves') :
    (r ++ r').Covers s (leaves ++ leaves') :=
  ⟨List.append_eq_nil_iff.mpr ⟨h.1, h'.1⟩, List.rel_append h.2 h'.2⟩

/-- Values below steps are not one value. -/
theorem chain?_eq_none {ps : List (Segment × Construction)}
    (h : r.Covers s (Construction.partLeaves ps)) : r.chain? = none := by
  refine Compiled.chain?_eq_none fun o ho => ?_
  obtain ⟨leaf, hleaf, htarget, -⟩ := exists_mem_of_forall₂ h.2 ho
  obtain ⟨step, -, t, ht⟩ := Construction.exists_of_mem_partLeaves hleaf
  rw [htarget, ht]
  exact List.cons_ne_nil _ _

/-- What is put together is no whole table, so it is not expanded. -/
theorem expandWhole {scope : Scope} {ps : List (Segment × Construction)}
    (h : r.Covers s (Construction.partLeaves ps))
    (hyields : Yields (expandWhole s scope r) c r' c') :
    r'.Covers s (Construction.partLeaves ps) := by
  obtain ⟨w?, c₁, hw, hyields⟩ := yields_bind_iff.mp hyields
  obtain rfl := whole?_yields_none hw fun root path hchain => by
    rw [h.chain?_eq_none] at hchain
    cases hchain
  obtain ⟨rfl, -⟩ := yields_pure_iff.mp hyields
  exact h

end Compiled.Covers

mutual

/-- **A mapping that puts values together compiles to these values**, each at its target. -/
theorem outputs_of_compileMapping : (e : Expr) →
    (∀ leaf ∈ e.construction.leaves, leaf.2.IsValue s) → ∀ {c c' : Collected} {r : Compiled},
    Yields (compileMapping s e) c r c' → r.Covers s e.construction.leaves
  | .tuple items, he, c, c', r, h => by
    obtain ⟨r', c₁, hr, h⟩ := yields_bind_iff.mp h
    exact (outputs_of_compileItems items he hr).expandWhole h
  | .array items, he, c, c', r, h => by
    obtain ⟨r', c₁, hr, h⟩ := yields_bind_iff.mp h
    exact (outputs_of_compileItems items he hr).expandWhole h
  | .object members, he, c, c', r, h => by
    obtain ⟨r', c₁, hr, h⟩ := yields_bind_iff.mp h
    exact (outputs_of_compileMembers members he hr).expandWhole h
  | .row, he, _, _, _, h | .args, he, _, _, _, h | .var _, he, _, _, _, h
  | .constant _, he, _, _, _, h | .member .., he, _, _, _, h | .unary .., he, _, _, _, h
  | .binary .., he, _, _, _, h | .conditional .., he, _, _, _, h | .cases .., he, _, _, _, h
  | .casesOf .., he, _, _, _, h | .aggregate .., he, _, _, _, h | .apply .., he, _, _, _, h
  | .select .., he, _, _, _, h | .toList _, he, _, _, _, h | .one _, he, _, _, _, h
  | .rowNumber, he, _, _, _, h | .isIn .., he, _, _, _, h | .contains .., he, _, _, _, h
  | .method .., he, _, _, _, h => by
    obtain ⟨v, type, rfl⟩ := he _ (List.mem_singleton_self _) _ _ _ h
    exact ⟨rfl, .cons ⟨rfl, _, _, h⟩ .nil⟩
termination_by structural e => e

theorem outputs_of_compileItems : (items : List Expr) → ∀ {index : Nat} {whole : Expr},
    (∀ leaf ∈ Construction.partLeaves (Expr.itemParts index items), leaf.2.IsValue s) →
    ∀ {c c' : Collected} {r : Compiled},
    Yields (compileItems s .outermost whole index items) c r c' →
      r.Covers s (Construction.partLeaves (Expr.itemParts index items))
  | [], _, _, _, _, _, _, h => by
    obtain ⟨rfl, -⟩ := yields_pure_iff.mp h
    exact ⟨rfl, .nil⟩
  | e :: es, index, whole, he, c, c', r, h => by
    obtain ⟨r₁, c₁, hr, h⟩ := yields_bind_iff.mp h
    obtain ⟨r₂, c₂, hrest, h⟩ := yields_bind_iff.mp h
    obtain ⟨rfl, -⟩ := yields_pure_iff.mp h
    obtain ⟨hvalues, hvalues'⟩ := Construction.forall_partLeaves_cons_iff.mp he
    have hfirst := outputs_of_compileMapping e hvalues (yields_within_iff.mp hr)
    exact (hfirst.under _).append (outputs_of_compileItems es hvalues' hrest)
termination_by structural items => items

theorem outputs_of_compileMembers : (members : List (String × Expr)) → ∀ {whole : Expr},
    (∀ leaf ∈ Construction.partLeaves (Expr.memberParts members), leaf.2.IsValue s) →
    ∀ {c c' : Collected} {r : Compiled},
    Yields (compileMembers s .outermost whole members) c r c' →
      r.Covers s (Construction.partLeaves (Expr.memberParts members))
  | [], _, _, _, _, _, h => by
    obtain ⟨rfl, -⟩ := yields_pure_iff.mp h
    exact ⟨rfl, .nil⟩
  | (name, e) :: es, whole, he, c, c', r, h => by
    obtain ⟨r₁, c₁, hr, h⟩ := yields_bind_iff.mp h
    obtain ⟨r₂, c₂, hrest, h⟩ := yields_bind_iff.mp h
    obtain ⟨rfl, -⟩ := yields_pure_iff.mp h
    obtain ⟨hvalues, hvalues'⟩ := Construction.forall_partLeaves_cons_iff.mp he
    have hfirst := outputs_of_compileMapping e hvalues (yields_within_iff.mp hr)
    exact (hfirst.under _).append (outputs_of_compileMembers es hvalues' hrest)
termination_by structural members => members

end

end NestedQuery
