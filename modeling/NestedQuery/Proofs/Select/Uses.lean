import NestedQuery.Proofs.Mapping.Registered
import NestedQuery.Proofs.Select.Sources
import NestedQuery.Proofs.Sql.Closed
import NestedQuery.Proofs.Sql.Uses

/-!
# The parameters of a statement

A term is written with a list test just where its set is one parameter that the pool marks as a
list. So if the pool admits all its parameters, what is written uses each of them as it is marked
(`TermWriter.isMarked_term`). An assembled statement has no parameters but those of its terms, hence
the same holds of all of it (`Assembler.isMarked_of_assemble`).
-/

namespace NestedQuery

open Fragment

/-! ### Admitted terms -/

/-- The leaf is a column, or a parameter that the pool admits. -/
def Cell.IsAdmitted (p : Pool) (isSet : Bool) : Cell → Prop
  | .param id => p.Admits id isSet
  | .column .. => True

/-- The pool admits all parameters of the term. `isSet` says whether the term itself is the whole
set of a membership test. -/
def Term.IsAdmitted (p : Pool) (isSet : Bool) (t : Term) : Prop :=
  ∀ x ∈ t.roles isSet, x.1.IsAdmitted p x.2

theorem Term.IsAdmitted.mono {p q : Pool} {isSet : Bool} {t : Term} (h : t.IsAdmitted p isSet)
    (hpq : p.slots <+: q.slots) : t.IsAdmitted q isSet := by
  rintro ⟨a, isSet'⟩ hx
  have ha := h _ hx
  cases a with
  | param id => exact Pool.Admits.mono ha hpq
  | column c r function type => trivial

/-- Resolving leaves parameters as they are. -/
theorem Accumulator.IsRegistered.isAdmitted {c : Collected} {v : Accumulator Symbol}
    {r : Resolver} {t : Term} (hv : v.IsRegistered c false) (h : r.resolveTree v = .ok t) :
    t.IsAdmitted c.pool false := by
  intro y hy
  obtain ⟨x, hx, hresolve, hset⟩ :=
    exists_mem_of_forall₂ (Accumulator.roles_of_traverse false v h) hy
  obtain ⟨a, isSet⟩ := x
  have ha := hv _ hx
  rw [← hset]
  cases a with
  | param id => rwa [← Except.ok.inj hresolve]
  | column root path into function =>
    obtain ⟨_, -, hresolve⟩ := Result.bind_eq_ok_iff.mp hresolve
    obtain ⟨_, -, hresolve⟩ := Result.bind_eq_ok_iff.mp hresolve
    rw [← Result.pure_eq_ok_iff.mp hresolve]
    trivial

/-! ### Written terms -/

section

variable {p : Pool} {f : Fragment}

@[simp] theorem BinaryOp.uses_chunk (op : BinaryOp) : op.chunk.uses = [] := by
  cases op <;> rfl

@[simp] theorem Engine.isMarked_aggregate {e : Engine} {function : Aggregate} {distinct : Bool} :
    IsMarked p (e.aggregate function f distinct) ↔ IsMarked p f := by
  have hcall : IsMarked p (Fragment.call function.sqlName
      (if distinct then .token .distinct :: f else f)) ↔ IsMarked p f := by
    rw [isMarked_call]
    split <;> simp [Chunk.uses]
  rcases e.aggregate_eq function f distinct with h | ⟨type, -, h⟩
  · rw [h, hcall]
  · rw [h, isMarked_call, isMarked_append, hcall]
    simp [Chunk.uses]

namespace TermWriter

variable {w : TermWriter}

@[simp] theorem isMarked_column (w : TermWriter) (c : ColumnRef) : IsMarked p (w.column c) := by
  unfold column
  split <;> exact isMarked_qualified _ _

@[simp] theorem isMarked_asOperand {t : Term} :
    IsMarked p (asOperand t f) ↔ IsMarked p f := by
  unfold asOperand
  split
  · exact isMarked_parens
  · exact Iff.rfl

@[simp] theorem isMarked_marked {m : Marker} : IsMarked p (marked m f) ↔ IsMarked p f := by
  simp [marked, Chunk.uses]

theorem isMarked_aggregate (w : TermWriter) (function : Aggregate) (operand : Term)
    (h : IsMarked p f) : IsMarked p (w.aggregate function operand f) := by
  obtain ⟨g, argument, distinct, heq, rfl | ⟨m, -, rfl⟩⟩ := w.aggregate_eq function operand f
  · rwa [heq, Engine.isMarked_aggregate]
  · rwa [heq, Engine.isMarked_aggregate, isMarked_marked]

theorem isMarked_leaf {a : Cell} (h : a.IsAdmitted p false) : IsMarked p (w.leaf a) := by
  cases a with
  | param id => exact isMarked_param.mpr h.marks
  | column c r function type =>
    cases function with
    | none => exact w.isMarked_column c
    | some f => exact isMarked_call.mpr (w.isMarked_column c)

/-- The test is one in a list just if its set is one parameter that is marked as a list. -/
theorem isMarked_membership {subject : Fragment} {list : Term} (hs : IsMarked w.pool subject)
    (hadmitted : list.IsAdmitted w.pool true)
    (hlist : list.IsAdmitted w.pool false → IsMarked w.pool (w.term list)) :
    IsMarked w.pool (w.membership subject list (w.term list)) := by
  have hin (h : list.IsAdmitted w.pool false) :
      IsMarked w.pool (subject ++ [.token .in_] ++ (w.term list).parens) := by
    simp [hs, hlist h, Chunk.uses]
  cases hleaf : list.isLeaf with
  | false =>
    -- Only a leaf is read as a list; anything else is admitted as a value.
    have h : list.IsAdmitted w.pool false := by
      rw [Term.IsAdmitted, Accumulator.roles_eq_of_not_isLeaf hleaf false true]
      exact hadmitted
    cases list with
    | leaf a => cases hleaf
    | _ => exact hin h
  | true =>
    cases list with
    | leaf a =>
      have ha := hadmitted (a, true) (List.mem_singleton_self _)
      cases a with
      | column c r function type => exact hin (List.forall_mem_singleton.mpr trivial)
      | param id =>
        have hmarks := Pool.Admits.marks_isExpanded ha
        -- The test is written as the parameter is marked.
        cases hexpanded : w.pool.isExpanded id with
        | true =>
          rw [hexpanded] at hmarks
          rw [membership, if_pos hexpanded]
          exact isMarked_inList.mpr ⟨hs, hmarks⟩
        | false =>
          rw [hexpanded] at hmarks
          rw [membership, if_neg (Bool.eq_false_iff.mp hexpanded)]
          exact hin (List.forall_mem_singleton.mpr ⟨false, hmarks, fun h => h⟩)
    | _ => cases hleaf

mutual

/-- **A written term** uses its parameters as they are marked. -/
theorem isMarked_term (w : TermWriter) :
    (t : Term) → t.IsAdmitted w.pool false → IsMarked w.pool (w.term t)
  | .leaf a, h => by
    rw [term]
    exact isMarked_leaf (h (a, false) (List.mem_singleton_self _))
  | .binary op left right, h => by
    cases op with
    | isIn =>
      obtain ⟨hl, hr⟩ := List.forall_mem_append.mp h
      rw [term]
      exact isMarked_membership (isMarked_asOperand.mpr (isMarked_term w left hl)) hr
        (isMarked_term w right)
    | _ =>
      rw [Term.IsAdmitted, Accumulator.roles_binary (by simp)] at h
      obtain ⟨hl, hr⟩ := List.forall_mem_append.mp h
      simp [term, isMarked_term w left hl, isMarked_term w right hr, Chunk.uses]
  | .wrap op operand, h => by
    have ho := isMarked_term w operand h
    cases op with
    | aggregate function =>
      rw [term]
      exact w.isMarked_aggregate function operand ho
    | _ => simp [term, Engine.wrap, ho, Chunk.uses]
  | .cases bs otherwise, h => by
    obtain ⟨hbs, ho⟩ := List.forall_mem_append.mp h
    simp [term, isMarked_branches w bs hbs, isMarked_term w otherwise ho, Chunk.uses]
  | .casesOf subject bs otherwise, h => by
    obtain ⟨hk, h⟩ := List.forall_mem_append.mp h
    obtain ⟨hbs, ho⟩ := List.forall_mem_append.mp h
    simp [term, isMarked_term w subject hk, isMarked_branches w bs hbs,
      isMarked_term w otherwise ho, Chunk.uses]

theorem isMarked_branches (w : TermWriter) : (bs : List (Term × Term)) →
    (∀ x ∈ Accumulator.rolesOfBranches bs, x.1.IsAdmitted w.pool x.2) →
    IsMarked w.pool (w.branches bs)
  | [], _ => by
    rw [branches]
    exact isMarked_nil
  | (test, value) :: rest, h => by
    obtain ⟨ht, h⟩ := List.forall_mem_append.mp h
    obtain ⟨hv, hrest⟩ := List.forall_mem_append.mp h
    simp [branches, isMarked_term w test ht, isMarked_term w value hv,
      isMarked_branches w rest hrest, Chunk.uses]

end

end TermWriter

end

/-! ### Statements -/

/-- The pool admits all parameters of the statement's terms. -/
structure Statement.IsAdmitted (p : Pool) (s : Statement) : Prop where
  /-- Those of the join conditions. -/
  on : ∀ j ∈ s.joins, ∀ t, j.on? = some t → t.IsAdmitted p false
  /-- Those of the filter. -/
  filter : ∀ t, s.filter? = some t → t.IsAdmitted p false
  /-- Those of the ordering keys. -/
  order : ∀ key ∈ s.order, key.1.IsAdmitted p false

namespace Assembler

variable {a : Assembler} {p : Pool}

theorem isMarked_columns (w : TermWriter) (cs : List ColumnRef) :
    IsMarked p (Fragment.joined (cs.map w.column) .comma) :=
  isMarked_joined (List.forall_mem_map.mpr fun c _ => w.isMarked_column c)

theorem isMarked_rowNumbers (e : Engine) (table : String) (n : Nat) :
    IsMarked p ((e.rowNumbers table).run n).1 := by
  unfold Engine.rowNumbers
  split
  · exact isMarked_append.mpr ⟨isMarked_call.mpr isMarked_nil, isMarked_of_uses_eq_nil rfl⟩
  · exact isMarked_of_uses_eq_nil rfl
  · exact isMarked_of_uses_eq_nil rfl

theorem isMarked_tableSource (e : Engine) (table name : String) (n : Nat) :
    IsMarked p ((e.tableSource table name).run n).1 := by
  have hnumbers := isMarked_rowNumbers (p := p) e table n
  refine isMarked_named.mpr (isMarked_parens.mpr (isMarked_append.mpr ⟨?_, ?_⟩))
  · exact isMarked_cons.mpr ⟨nofun, isMarked_named.mpr hnumbers⟩
  · exact isMarked_of_uses_eq_nil rfl

theorem joinsKeep_isMarked (h : a.statement.IsAdmitted a.pool) :
    a.JoinsKeep (IsMarked a.pool) where
  nil := isMarked_nil
  append hf hg := isMarked_append.mpr ⟨hf, hg⟩
  token _ := isMarked_of_uses_eq_nil rfl
  table := isMarked_tableSource a.engine
  on hj ht := a.writer.isMarked_term _ (h.on _ hj _ ht)
  filter ht := a.writer.isMarked_term _ (h.filter _ ht)

theorem isMarked_projection {w : TermWriter} {d : Draft}
    (h : ∀ o ∈ d.outputs, o.value.IsAdmitted w.pool false) :
    IsMarked w.pool (projection w d) := by
  refine isMarked_cons.mpr ⟨nofun, isMarked_joined (List.forall_mem_append.mpr ⟨?_, ?_⟩)⟩
  · exact List.forall_mem_map.mpr fun o ho => isMarked_named.mpr (w.isMarked_term _ (h o ho))
  · exact List.forall_mem_map.mpr fun x _ => isMarked_named.mpr (w.isMarked_column _)

theorem isMarked_groupClause (w : TermWriter) (outputs : List (Output Cell))
    (keys : List ColumnRef) : IsMarked p (groupClause w outputs keys) := by
  unfold groupClause
  split
  · exact isMarked_append.mpr ⟨isMarked_of_uses_eq_nil rfl, isMarked_columns w keys⟩
  · exact isMarked_nil

theorem isMarked_ordering {w : TermWriter} {d : Draft}
    (h : ∀ key ∈ a.statement.order, key.1.IsAdmitted w.pool false) :
    IsMarked w.pool (a.ordering w d) := by
  refine isMarked_append.mpr ⟨isMarked_of_uses_eq_nil rfl,
    isMarked_joined (List.forall_mem_append.mpr ⟨?_, ?_⟩)⟩
  · exact List.forall_mem_map.mpr fun key hkey => isMarked_append.mpr
      ⟨w.isMarked_term _ (h key hkey), isMarked_of_uses_eq_nil rfl⟩
  · exact List.forall_mem_map.mpr fun l _ => w.isMarked_column _

theorem isMarked_paging (e : Engine) (skip? take? : Option Nat) :
    IsMarked p ((e.paging skip? take?).getD []) := by
  cases skip? <;> cases take? <;> exact isMarked_of_uses_eq_nil rfl

theorem isMarked_markerColumn (keys : List ColumnRef) (m : Marker) :
    IsMarked p (a.markerColumn keys m) := by
  have hcolumns := isMarked_columns (p := p) a.writer (partition keys m)
  simp [markerColumn, hcolumns, Chunk.uses]

theorem isMarked_rowSource (h : a.statement.IsAdmitted a.pool) {kept : List TableId} {d : Draft}
    {keys : List ColumnRef} {ms : List Marker} {f : Fragment} {n n' : Nat}
    (hf : (a.rowSource kept d keys ms).run n = .ok (f, n')) : IsMarked a.pool f := by
  obtain ⟨-, hf⟩ | ⟨-, rows, hrows, rfl⟩ := rowSource_run_eq_ok hf
  · exact (joinsKeep_isMarked h).sources hf
  · obtain ⟨source, hsource, rfl⟩ := derivedRows_run_eq_ok hrows
    have hmarked := (joinsKeep_isMarked h).sources hsource
    have hselection : IsMarked a.pool (a.derivedSelection d keys ms) := by
      refine isMarked_joined (List.forall_mem_append.mpr ⟨?_, ?_⟩)
      · exact List.forall_mem_map.mpr fun c _ => isMarked_named.mpr (a.writer.isMarked_column c)
      · exact List.forall_mem_map.mpr fun m _ => isMarked_markerColumn keys m
    simp [hmarked, hselection, Chunk.uses]

/-- **An assembled statement** uses its parameters as they are marked. -/
theorem isMarked_of_assemble {outputs : List (Output Cell)} {tables : List MappedTable}
    {r : Assembled} {n n' : Nat} (hs : a.statement.IsAdmitted a.pool)
    (ho : ∀ o ∈ outputs, Term.IsAdmitted a.pool false o.value)
    (h : (a.assemble outputs tables).run n = .ok (r, n')) : IsMarked a.pool r.sql := by
  obtain ⟨-, -, markers, source, -, hsource, hsql⟩ := assemble_run_eq_ok h
  have hprojection : IsMarked a.pool
      (projection (a.outerWriter markers) (Draft.ofMapping a.statement tables outputs)) := by
    refine isMarked_projection (w := a.outerWriter markers) fun x hx => ?_
    obtain ⟨o, hmem, hvalue⟩ := Draft.exists_of_mem_ofMapping hx
    exact hvalue ▸ ho o hmem
  have hordering := isMarked_ordering (a := a) (w := a.outerWriter markers)
    (d := Draft.ofMapping a.statement tables outputs) hs.order
  rw [hsql]
  simp only [isMarked_append]
  exact ⟨⟨⟨⟨⟨hprojection, isMarked_of_uses_eq_nil rfl⟩, isMarked_rowSource hs hsource⟩,
    isMarked_groupClause _ _ _⟩, hordering⟩, isMarked_paging _ _ _⟩

end Assembler

end NestedQuery
