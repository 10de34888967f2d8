import NestedQuery.Proofs.Query.Binding
import NestedQuery.Proofs.Sql.Numbering

/-!
# Lists among the parameters

A list is bound as one placeholder for each of its items. Binding refuses a list elsewhere, but it
looks at a slot's value only, not at what is inside it, and the items of a list become parameters
as they are. So a list of lists puts its inner lists among the parameters.

`Fragment.writtenLists` are the list parameters whose items are written: those of the list tests in
lists that are not empty, with the tests in the subjects of such. The main result is
`QuerySpec.list_mem_params_iff`: the lists among the parameters of a query are just the lists inside
the lists that are written, and no document is refused for them.
-/

namespace NestedQuery

/-! ### Lists that are written -/

mutual

/-- The list parameters whose items a chunk writes. A test in an empty list writes nothing, and so
nothing of its subject. -/
def Chunk.writtenLists (bound : List Value) : Chunk → List ParamId
  | .inList subject id =>
    match bound[id]? with
    | some (.list []) => []
    | some (.list _) => writtenListsOf bound subject ++ [id]
    | _ => []
  | _ => []

/-- The list parameters whose items several chunks write. -/
def writtenListsOf (bound : List Value) : List Chunk → List ParamId
  | [] => []
  | c :: rest => c.writtenLists bound ++ writtenListsOf bound rest

end

/-- The list parameters whose items a fragment writes. -/
def Fragment.writtenLists (f : Fragment) (bound : List Value) : List ParamId :=
  writtenListsOf bound f

/-- The value is an item of what is bound to one of the parameters. -/
def IsItemOf (bound : List Value) (ids : List ParamId) (v : Value) : Prop :=
  ∃ id ∈ ids, ∃ outer, bound[id]? = some (.list outer) ∧ v ∈ outer

variable {bound : List Value}

theorem not_isItemOf_nil {v : Value} : ¬ IsItemOf bound [] v :=
  fun ⟨_, h, _⟩ => absurd h List.not_mem_nil

theorem isItemOf_append {ids ids' : List ParamId} {v : Value} :
    IsItemOf bound (ids ++ ids') v ↔ IsItemOf bound ids v ∨ IsItemOf bound ids' v := by
  simp only [IsItemOf, List.mem_append, or_and_right, exists_or]

theorem isItemOf_singleton {id : ParamId} {items : List Value} (h : bound[id]? = some (.list items))
    {v : Value} : IsItemOf bound [id] v ↔ v ∈ items := by
  simp [IsItemOf, h]

/-! ### Lists among the values of a fragment -/

mutual

/-- A chunk whose parameters are bound contributes a list only as an item of a list. -/
theorem Chunk.list_mem_values_iff {inner : List Value} : (c : Chunk) →
    (∀ use ∈ c.uses, IsBound bound use) →
      (.list inner ∈ c.values bound ↔ IsItemOf bound (c.writtenLists bound) (.list inner))
  | .token _, _ | .ident _, _ | .raw _, _ | .function _, _ | .number _, _ =>
    iff_of_false nofun not_isItemOf_nil
  | .param id, h => by
    obtain ⟨v, hv, hsingle⟩ := h (id, false) (List.mem_singleton_self _)
    have hvalue : bound.getD id .null = v := by
      rw [List.getD_eq_getElem?_getD, hv, Option.getD_some]
    rw [Chunk.values, hvalue]
    refine iff_of_false (fun hmem => ?_) not_isItemOf_nil
    rw [← List.mem_singleton.mp hmem] at hsingle
    cases hsingle
  | .inList subject id, h => by
    obtain ⟨hsubject, hlist⟩ := List.forall_mem_append.mp h
    obtain ⟨v, hv, hitems⟩ := hlist (id, true) (List.mem_singleton_self _)
    obtain ⟨items, hitems⟩ := Option.isSome_iff_exists.mp hitems
    obtain rfl := Value.items?_eq_some_iff.mp hitems
    simp only [Chunk.values, Chunk.writtenLists, hv]
    -- An empty list is written as a test without values.
    cases items with
    | nil => exact iff_of_false nofun not_isItemOf_nil
    | cons item items =>
      rw [List.mem_append, isItemOf_append, isItemOf_singleton hv]
      exact or_congr_left (list_mem_valuesOf_iff subject hsubject)

theorem list_mem_valuesOf_iff {inner : List Value} : (f : List Chunk) →
    (∀ use ∈ usesOf f, IsBound bound use) →
      (.list inner ∈ valuesOf bound f ↔ IsItemOf bound (writtenListsOf bound f) (.list inner))
  | [], _ => iff_of_false nofun not_isItemOf_nil
  | c :: rest, h => by
    obtain ⟨hc, hrest⟩ := List.forall_mem_append.mp h
    rw [valuesOf, writtenListsOf, List.mem_append, isItemOf_append]
    exact or_congr (c.list_mem_values_iff hc) (list_mem_valuesOf_iff rest hrest)

end

mutual

/-- The lists that a chunk writes are used as lists. -/
theorem Chunk.mem_uses_of_mem_writtenLists {id : ParamId} : (c : Chunk) →
    id ∈ c.writtenLists bound → (id, true) ∈ c.uses
  | .token _, h | .ident _, h | .raw _, h | .function _, h | .number _, h | .param _, h =>
    absurd h List.not_mem_nil
  | .inList subject list, h => by
    rw [Chunk.writtenLists] at h
    split at h
    · exact absurd h List.not_mem_nil
    · rcases List.mem_append.mp h with h | h
      · exact List.mem_append_left _ (mem_usesOf_of_mem_writtenListsOf subject h)
      · obtain rfl := List.mem_singleton.mp h
        exact List.mem_append_right _ (List.mem_singleton_self _)
    · exact absurd h List.not_mem_nil

theorem mem_usesOf_of_mem_writtenListsOf {id : ParamId} : (f : List Chunk) →
    id ∈ writtenListsOf bound f → (id, true) ∈ usesOf f
  | [], h => absurd h List.not_mem_nil
  | c :: rest, h => by
    rcases List.mem_append.mp h with h | h
    · exact List.mem_append_left _ (c.mem_uses_of_mem_writtenLists h)
    · exact List.mem_append_right _ (mem_usesOf_of_mem_writtenListsOf rest h)

end

/-! ### Queries -/

namespace QuerySpec

variable {q : QuerySpec} {mapping : Expr}

/-- **Which lists are among the parameters.** Whenever the parameters of a query are bound, its
statement is rendered, whatever is inside the lists. Lists are marked slots only, each with one
placeholder for each of its items; and among the parameters there are just those lists that are
items of a list that is written. -/
theorem list_mem_params_iff {settings : Settings} {query : Query} {n n' : Nat}
    (h : (q.compile settings mapping).run n = .ok (query, n')) {arguments : Document}
    {bound : List Value} (hbind : query.pool.bind arguments = .ok bound) :
    ∃ r, query.render arguments = .ok r ∧
      ∀ inner, .list inner ∈ r.params ↔
        ∃ id ∈ query.sql.writtenLists bound, ∃ slot outer, query.pool.slots[id]? = some slot ∧
          slot.expanded = true ∧ Pool.sourceValue arguments slot.source = .ok (.list outer) ∧
          .list inner ∈ outer := by
  obtain ⟨hmarked, hrender, -⟩ := render_eq_error_iff h
  obtain ⟨r, hr⟩ := hrender arguments bound hbind
  refine ⟨r, Result.bind_eq_ok_iff.mpr ⟨bound, hbind, hr⟩, fun inner => ?_⟩
  have huses : ∀ use ∈ query.sql.uses, IsBound bound use := fun use huse =>
    (hmarked use huse).isBound hbind
  rw [Fragment.params_of_render hr]
  refine (list_mem_valuesOf_iff query.sql huses).trans (exists_congr fun id => ?_)
  refine and_congr_right fun hid => ?_
  -- The slot of a list that is written is marked, and its value is what is bound.
  have huse := mem_usesOf_of_mem_writtenListsOf query.sql hid
  obtain ⟨slot, hslot, hexpanded⟩ := Option.map_eq_some_iff.mp (hmarked _ huse)
  obtain ⟨v, hv, hsource⟩ := Pool.getElem?_of_bind_eq_ok hbind hslot
  constructor
  · rintro ⟨outer, houter, hmem⟩
    obtain rfl := Option.some.inj (hv.symm.trans houter)
    exact ⟨slot, outer, hslot, hexpanded, hsource, hmem⟩
  · rintro ⟨slot', outer, hslot', -, hsource', hmem⟩
    obtain rfl := Option.some.inj (hslot.symm.trans hslot')
    obtain rfl := Except.ok.inj (hsource.symm.trans hsource')
    exact ⟨outer, hv, hmem⟩

/-- The people whose number is one of the given ones. -/
def peopleByNumber : QuerySpec :=
  { people with filters := [.isIn (shapeField "person" "id") (.member .args "ids")] }

/-- Two numbers and a third, the two in a list of their own. -/
def nestedNumbers : Document :=
  .object [("ids", .array [.array [.integer 1, .integer 2], .integer 3])]

/-- There are two parameters, and the list of the two numbers is one of them. -/
theorem list_mem_params_iff_peopleByNumber :
    ∃ query n' bound r inner,
      (peopleByNumber.compile {} (shapeField "person" "name")).run 0 = .ok (query, n') ∧
      query.pool.bind nestedNumbers = .ok bound ∧ query.render nestedNumbers = .ok r ∧
      r.params.length = 2 ∧ .list inner ∈ r.params ∧ inner.length = 2 ∧
      ∃ id ∈ query.sql.writtenLists bound, ∃ slot outer, query.pool.slots[id]? = some slot ∧
        slot.expanded = true ∧
        Pool.sourceValue nestedNumbers slot.source = .ok (.list outer) ∧ .list inner ∈ outer := by
  have hrun : ((peopleByNumber.compile {} (shapeField "person" "name")).run 0).any (fun x =>
      (x.1.pool.bind nestedNumbers).any (fun _ => true) &&
        (x.1.render nestedNumbers).any fun r => r.params.length == 2 &&
          r.params.any fun v => v.items?.map List.length == some 2) = true := by
    decide +kernel
  obtain ⟨⟨query, n'⟩, hquery, hchecks⟩ := Result.any_eq_true_iff.mp hrun
  obtain ⟨hbind, hrender⟩ := Bool.and_eq_true_iff.mp hchecks
  obtain ⟨bound, hbound, -⟩ := Result.any_eq_true_iff.mp hbind
  obtain ⟨r, hr, hparams⟩ := Result.any_eq_true_iff.mp hrender
  obtain ⟨hlength, hany⟩ := Bool.and_eq_true_iff.mp hparams
  obtain ⟨v, hv, hitems⟩ := List.any_eq_true.mp hany
  obtain ⟨inner, hinner, htwo⟩ := Option.map_eq_some_iff.mp (beq_iff_eq.mp hitems)
  obtain rfl := Value.items?_eq_some_iff.mp hinner
  obtain ⟨r', hr', hiff⟩ := list_mem_params_iff hquery hbound
  obtain rfl := Except.ok.inj (hr.symm.trans hr')
  exact ⟨query, n', bound, r, inner, hquery, hbound, hr, beq_iff_eq.mp hlength, hv, htwo,
    (hiff inner).mp hv⟩

end QuerySpec

end NestedQuery
