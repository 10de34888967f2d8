import NestedQuery.Proofs.Sql.Scope

/-!
# References outside aggregates

A grouped query may refer to its group keys, and to other columns only inside the arguments of an
aggregate. `outsideReferences` lists the references of nodes that stand in no such arguments, and
`clauseNodes` what stands behind the keyword of a clause. `IsOutside` says where the references of a
fragment lie; it is closed under all that terms are put together with.
-/

namespace NestedQuery

/-! ### References outside aggregates -/

/-- The functions that fold the rows of a group. -/
def aggregateNames : List String :=
  ["COUNT", "SUM", "AVG", "MIN", "MAX"]

theorem Aggregate.sqlName_mem_aggregateNames (f : Aggregate) : f.sqlName ∈ aggregateNames := by
  cases f <;> decide

/-- Whether a node is the name of an aggregate, so that its arguments come next. -/
def SqlNode.isAggregate : SqlNode → Bool
  | .chunk (.function name) => aggregateNames.contains name
  | _ => false

mutual

/-- The references inside a node that stand outside aggregates, unless the node is a query. -/
def SqlNode.outsideReferences : SqlNode → List Reference
  | .chunk _ => []
  | .group ns => if isQuery ns then [] else outsideReferencesFrom false ns

/-- The references outside aggregates, left to right. `applied` says that the name of an aggregate
comes directly before the nodes, which then start with its arguments. -/
def outsideReferencesFrom (applied : Bool) : List SqlNode → List Reference
  | [] => []
  | n :: rest =>
    (reference? (n :: rest)).toList ++ (if applied then [] else n.outsideReferences)
      ++ outsideReferencesFrom n.isAggregate rest

end

/-- The references of nodes that stand outside aggregates, left to right. -/
def outsideReferences (ns : List SqlNode) : List Reference :=
  outsideReferencesFrom false ns

/-- Wherever the nodes stand before something else than a point, they refer outside aggregates to
columns in `R` only. They start no clause. -/
structure Outside (R : Reference → Prop) (ns : List SqlNode) : Prop where
  /-- They do not start with a point. -/
  first : startsWithDot ns = false
  /-- They add references in `R`. -/
  adds {rest : List SqlNode} : startsWithDot rest = false →
    ∀ r ∈ outsideReferences (ns ++ rest), R r ∨ r ∈ outsideReferences rest
  /-- No clause starts here. -/
  clause : ∀ n ∈ ns, n.startsClause = false

section

variable {R : Reference → Prop} {ns ms : List SqlNode}

theorem Outside.forall_mem (h : Outside R ns) : ∀ r ∈ outsideReferences ns, R r := by
  intro r hr
  rw [← List.append_nil ns] at hr
  exact (h.adds rfl r hr).resolve_right List.not_mem_nil

theorem outside_nil : Outside R [] :=
  ⟨rfl, fun _ _ hr => Or.inr hr, nofun⟩

theorem Outside.append (h : Outside R ns) (h' : Outside R ms) : Outside R (ns ++ ms) := by
  refine ⟨startsWithDot_append h.first h'.first, fun {rest} hrest r hr => ?_, ?_⟩
  · rw [List.append_assoc] at hr
    rcases h.adds (startsWithDot_append h'.first hrest) r hr with hr | hr
    · exact Or.inl hr
    · exact h'.adds hrest r hr
  · rw [List.forall_mem_append]
    exact ⟨h.clause, h'.clause⟩

/-- A chunk that is neither a point nor the name of an aggregate refers to nothing. -/
theorem outside_chunk {c : Chunk} (hdot : c ≠ .token .dot)
    (haggregate : (SqlNode.chunk c).isAggregate = false)
    (hclause : (SqlNode.chunk c).startsClause = false) : Outside R [.chunk c] := by
  refine ⟨(refersTo_chunk (R := R) hdot).first, fun {rest} hrest r hr => Or.inr ?_,
    List.forall_mem_singleton.mpr hclause⟩
  rw [List.singleton_append, outsideReferences, outsideReferencesFrom, reference?_eq_none hrest,
    haggregate] at hr
  exact hr

theorem Outside.group (h : Outside R ns) : Outside R [.group ns] := by
  refine ⟨rfl, fun {rest} hrest r hr => ?_, List.forall_mem_singleton.mpr rfl⟩
  rw [List.singleton_append, outsideReferences, outsideReferencesFrom,
    reference?_eq_none hrest, if_neg Bool.false_ne_true] at hr
  rcases List.mem_append.mp hr with hr | hr
  · rw [Option.toList_none, List.nil_append, SqlNode.outsideReferences] at hr
    split at hr
    · exact absurd hr List.not_mem_nil
    · exact Or.inl (h.forall_mem r hr)
  · exact Or.inr hr

/-- The arguments of an aggregate do not count. -/
theorem outside_aggregate {name : String} (hname : name ∈ aggregateNames) (ns : List SqlNode) :
    Outside R [.chunk (.function name), .group ns] := by
  refine ⟨rfl, fun {rest} hrest r hr => Or.inr ?_, ?_⟩
  · have happlied : (SqlNode.chunk (.function name)).isAggregate = true :=
      List.contains_iff_mem.mpr hname
    rw [List.cons_append, List.singleton_append, outsideReferences, outsideReferencesFrom,
      reference?_eq_none rfl, happlied, outsideReferencesFrom, reference?_eq_none hrest,
      if_pos rfl] at hr
    exact hr
  · rw [List.forall_mem_cons, List.forall_mem_singleton]
    exact ⟨rfl, rfl⟩

theorem outside_qualified {table column : String} (h : R ⟨table, column⟩) :
    Outside R [.chunk (.ident table), .chunk (.token .dot), .chunk (.ident column)] := by
  refine ⟨rfl, fun {rest} hrest r hr => ?_, by simp [SqlNode.startsClause, Token.startsClause]⟩
  have hreferences : outsideReferences ([.chunk (.ident table), .chunk (.token .dot),
      .chunk (.ident column)] ++ rest) = ⟨table, column⟩ :: outsideReferences rest := by
    show [_] ++ [] ++ ([] ++ [] ++ ((reference? (.chunk (.ident column) :: rest)).toList ++ []
      ++ outsideReferencesFrom false rest)) = _
    rw [reference?_eq_none hrest]
    rfl
  rw [hreferences] at hr
  rcases List.mem_cons.mp hr with rfl | hr
  · exact Or.inl h
  · exact Or.inr hr

end

/-- The fragment adds nodes that refer outside aggregates to columns in `R` only. -/
def IsOutside (R : Reference → Prop) (f : Fragment) : Prop :=
  ∃ ns, Nests f ns ∧ Outside R ns

/-- **References outside aggregates** are those of the parts that a fragment is put together
from. -/
theorem closed_isOutside (R : Reference → Prop) : Fragment.Closed (IsOutside R) where
  nil := ⟨[], nests_nil, outside_nil⟩
  append := fun ⟨_, hn, ho⟩ ⟨_, hn', ho'⟩ => ⟨_, hn.append hn', ho.append ho'⟩
  chunk {c} hc := by
    cases c with
    | token t =>
      refine ⟨_, nests_token ?_ ?_, outside_chunk ?_ rfl ?_⟩
      · rintro rfl
        exact absurd hc (by decide)
      · rintro rfl
        exact absurd hc (by decide)
      · rintro ⟨⟩
        exact absurd hc (by decide)
      · cases t <;> first | rfl | exact absurd hc (by decide)
    | raw text => exact ⟨_, nests_raw text, outside_chunk (by simp) rfl rfl⟩
    | number n => exact ⟨_, nests_number n, outside_chunk (by simp) rfl rfl⟩
    | param id => exact ⟨_, nests_param id, outside_chunk (by simp) rfl rfl⟩
    | _ => exact absurd hc nofun
  minus {f} _ := fun ⟨_, hn, ho⟩ =>
    ⟨_, (nests_tokens [.minus] rfl).append hn, (outside_chunk (by simp) rfl rfl).append ho⟩
  parens := fun ⟨_, hn, ho⟩ => ⟨_, hn.parens, ho.group⟩
  function {name f} _ := fun ⟨ns, hn, ho⟩ => by
    refine ⟨_, (nests_function name).append hn.parens, ?_⟩
    -- What stands in the parentheses of an aggregate is not outside; of any other function it is.
    by_cases hname : name ∈ aggregateNames
    · exact outside_aggregate hname ns
    · have haggregate : (SqlNode.chunk (.function name)).isAggregate = false := by
        rw [SqlNode.isAggregate, ← Bool.not_eq_true, List.contains_iff_mem]
        exact hname
      exact (outside_chunk (by simp) haggregate rfl).append ho.group
  inList {f} id := fun ⟨_, hn, ho⟩ => by
    have hparam : Outside R [.chunk (.param id)] := outside_chunk (by simp) rfl rfl
    have hin : Outside R [.chunk (.token .in_)] := outside_chunk (by simp) rfl rfl
    exact ⟨_, hn.inList id, ho.append (hin.append hparam.group)⟩

theorem IsOutside.named {R : Reference → Prop} {f : Fragment} (h : IsOutside R f) (name : String) :
    IsOutside R (f.named name) := by
  obtain ⟨ns, hnests, houtside⟩ := h
  have hname : Outside R [.chunk (.token .as_), .chunk (.ident name)] :=
    (outside_chunk (by simp) rfl rfl).append (outside_chunk (by simp) rfl rfl)
  exact ⟨_, hnests.named name, houtside.append hname⟩

/-! ### Clauses -/

/-- What stands behind the first keyword `t` outside parentheses, up to the next clause. -/
def clauseNodes (t : Token) (ns : List SqlNode) : List SqlNode :=
  ((ns.dropWhile fun n => !n.isToken t).drop 1).takeWhile fun n => !n.startsClause

theorem clauseNodes_eq {t : Token} {before ns : List SqlNode} (after : List SqlNode)
    (hbefore : ∀ n ∈ before, n.isToken t = false) (hns : ∀ n ∈ ns, n.startsClause = false)
    (hafter : endsClause after) :
    clauseNodes t (before ++ .chunk (.token t) :: (ns ++ after)) = ns := by
  have hkeyword : (SqlNode.chunk (.token t)).isToken t = true := beq_self_eq_true t
  rw [clauseNodes, List.dropWhile_append_of_pos fun n hn => by simp [hbefore n hn],
    List.dropWhile_cons_of_neg (by simp [hkeyword]), List.drop_one, List.tail_cons,
    List.takeWhile_append_of_pos fun n hn => by simp [hns n hn]]
  cases after with
  | nil => exact List.append_nil _
  | cons m after =>
    have hm : m.startsClause = true := hafter
    rw [List.takeWhile_cons_of_neg (by simp [hm]), List.append_nil]

end NestedQuery
