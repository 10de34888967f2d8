import NestedQuery.Proofs.Graph.Strays

/-!
# Links

The elements of a graph are found from its roots and from slots (`Graph.linked`). Where no row has
been refused, every element is found, and from one place only (`linked_perm_range`).
-/

namespace NestedQuery

/-- What an element is known by. -/
def Element.key (e : Element) : Nat × Chain :=
  (e.level, e.chain)

namespace Graph

variable {p : Plan} {g : Graph} {es : List Element} {place : Nat}

/-- The places in the roots and in the slots of all elements. -/
def linked (g : Graph) : List Nat :=
  g.roots ++ g.nodes.flatMap fun n => n.slots.flatMap ChildSlot.places

/-! ### No element twice -/

theorem Represents.length_nodes (h : g.Represents p es) : g.nodes.length = es.length := by
  rw [h.nodes, List.length_map]

theorem Represents.nodup_keys (h : g.Represents p es) : (es.map Element.key).Nodup := by
  rw [List.Nodup, List.pairwise_map, List.pairwise_iff_getElem]
  intro i j hi hj hij hkey
  obtain ⟨hlevel, hchain⟩ := Prod.mk.inj hkey
  have heq := h.place_eq (List.getElem?_eq_getElem hi) (List.getElem?_eq_getElem hj) hlevel hchain
  omega

theorem nodup_placesOf (q : Element → Bool) (es : List Element) : (placesOf q es).Nodup := by
  have hplaces : (es.zipIdx.map Prod.snd).Nodup := by
    rw [List.zipIdx_map_snd]
    exact List.nodup_range'
  exact hplaces.sublist (List.filter_sublist.map _)

theorem nodup_places_slotOf (p : Plan) (es : List Element) (k : Chain) (child : Nat) :
    (p.slotOf es k child).places.Nodup := by
  by_cases hsingle : p.isSingle child
  · rw [places_slotOf_of_isSingle hsingle]
    cases (placesOf (Element.isBelow child k) es).head? with
    | none => exact List.nodup_nil
    | some place => exact List.nodup_singleton place
  · rw [Plan.slotOf, if_neg hsingle]
    exact nodup_placesOf _ es

/-- What stands in a slot of an element hangs below it. -/
theorem exists_of_mem_slots {a : Element}
    (h : place ∈ (p.nodeOf es a).slots.flatMap ChildSlot.places) :
    ∃ e, es[place]? = some e ∧ e.level ∈ p.children a.level ∧ e.chain.dropLast = a.chain := by
  obtain ⟨s, hs, hplace⟩ := List.mem_flatMap.mp h
  obtain ⟨child, hchild, rfl⟩ := List.mem_map.mp hs
  obtain ⟨e, he, hbelow⟩ := Plan.exists_of_mem_slotOf hplace
  obtain ⟨rfl, hchain⟩ := Element.isBelow_iff.mp hbelow
  exact ⟨e, he, hchild, hchain⟩

/-- The slots of one element have different places: each place has one level. -/
theorem nodup_slots {a : Element} (hnodup : (p.children a.level).Nodup) :
    ((p.nodeOf es a).slots.flatMap ChildSlot.places).Nodup := by
  rw [Plan.nodeOf, List.flatMap_map, List.nodup_flatMap]
  refine ⟨fun child _ => nodup_places_slotOf p es a.chain child, hnodup.imp ?_⟩
  intro child child' hne
  show List.Disjoint _ _
  intro place hplace hplace'
  obtain ⟨e, he, hbelow⟩ := Plan.exists_of_mem_slotOf hplace
  obtain ⟨e', he', hbelow'⟩ := Plan.exists_of_mem_slotOf hplace'
  obtain rfl := Option.some.inj (he.symm.trans he')
  have hlevel := (Element.isBelow_iff.mp hbelow).1
  exact hne (hlevel.symm.trans (Element.isBelow_iff.mp hbelow').1)

theorem Represents.nodup_linked (hp : p.WellFormed) (h : g.Represents p es) : g.linked.Nodup := by
  have hchildren : ∀ a ∈ es, p.children a.level = p.childLevels a.level :=
    fun a ha => hp.children_eq _ (h.level_lt ha)
  rw [linked, h.nodes, h.roots, List.flatMap_map, List.nodup_append]
  refine ⟨nodup_placesOf _ es, List.nodup_flatMap.mpr ⟨fun a ha => ?_, ?_⟩, ?_⟩
  · exact nodup_slots (hchildren a ha ▸ p.nodup_childLevels _)
  · -- What hangs below two elements has one level and one chain, and so have these.
    have hkeys := h.nodup_keys
    rw [List.Nodup, List.pairwise_map] at hkeys
    refine hkeys.imp_of_mem ?_
    intro a b ha hb hne
    show List.Disjoint _ _
    intro place hplace hplace'
    obtain ⟨e, he, hlevel, hchain⟩ := exists_of_mem_slots hplace
    obtain ⟨e', he', hlevel', hchain'⟩ := exists_of_mem_slots hplace'
    obtain rfl := Option.some.inj (he.symm.trans he')
    rw [hchildren a ha, Plan.mem_childLevels] at hlevel
    rw [hchildren b hb, Plan.mem_childLevels] at hlevel'
    obtain ⟨level, hl, hparent⟩ := hlevel
    obtain ⟨level', hl', hparent'⟩ := hlevel'
    obtain rfl := Option.some.inj (hl.symm.trans hl')
    have habove : a.level = b.level := Option.some.inj (hparent.symm.trans hparent')
    exact hne (Prod.ext habove (hchain.symm.trans hchain'))
  · -- Roots are of the first level, and what hangs below an element is of a later one.
    intro root hroot place hplace heq
    subst heq
    obtain ⟨e, he, hzero⟩ := mem_placesOf.mp hroot
    obtain ⟨a, ha, hplace⟩ := List.mem_flatMap.mp hplace
    obtain ⟨e', he', hlevel, -⟩ := exists_of_mem_slots hplace
    obtain rfl := Option.some.inj (he.symm.trans he')
    rw [hchildren a ha] at hlevel
    have hpos := (hp.lt_of_mem_childLevels hlevel).1
    rw [Element.isRoot_iff.mp hzero] at hpos
    exact absurd hpos (Nat.not_lt_zero _)

/-! ### Every element -/

theorem Returned.mem_linked (h : g.Returned place) : place ∈ g.linked := by
  cases h with
  | root hroot => exact List.mem_append_left _ hroot
  | slot _ hn hs hplace =>
    have hslots := List.mem_flatMap.mpr ⟨_, hs, hplace⟩
    exact List.mem_append_right _ (List.mem_flatMap.mpr ⟨_, List.mem_of_getElem? hn, hslots⟩)

theorem Represents.lt_of_mem_linked (h : g.Represents p es) (hplace : place ∈ g.linked) :
    place < es.length := by
  rw [linked, h.nodes, h.roots, List.flatMap_map, List.mem_append] at hplace
  have hsome : ∃ e, es[place]? = some e := by
    rcases hplace with hroot | hslot
    · obtain ⟨e, he, -⟩ := mem_placesOf.mp hroot
      exact ⟨e, he⟩
    · obtain ⟨a, -, hslot⟩ := List.mem_flatMap.mp hslot
      obtain ⟨e, he, -⟩ := exists_of_mem_slots hslot
      exact ⟨e, he⟩
  obtain ⟨e, he⟩ := hsome
  exact (List.getElem?_eq_some_iff.mp he).1

/-- If all elements are returned, each stands in one place. -/
theorem Represents.linked_perm_range (hp : p.WellFormed) (h : g.Represents p es)
    (hall : ∀ place < es.length, g.Returned place) : g.linked.Perm (List.range es.length) := by
  rw [List.perm_ext_iff_of_nodup (h.nodup_linked hp) List.nodup_range]
  intro place
  rw [List.mem_range]
  exact ⟨h.lt_of_mem_linked, fun hplace => (hall place hplace).mem_linked⟩

/-- Rows that are all read leave the graph that they lead to, and none of them crowds out. -/
theorem after_of_forM_push {rows : List Row} {u : Unit}
    (h : Yields (rows.forM (push p)) {} u g) : g = after p rows ∧ ¬ CrowdsOut p rows := by
  induction rows using List.reverseRecOn generalizing g u with
  | nil =>
    refine ⟨(yields_pure_iff.mp h).2.symm, ?_⟩
    rintro ⟨before, r, rest, _, _, _, heq, -⟩
    exact absurd heq.symm (by simp)
  | append_singleton rows r ih =>
    rw [List.forM_eq_forM, List.forM_append] at h
    -- The rows before the last are read from the empty graph, and the last from what they leave.
    obtain ⟨_, g₁, hrows, h⟩ := yields_bind_iff.mp h
    obtain ⟨rfl, hnone⟩ := ih hrows
    have hpush : Yields (push p r) (after p rows) () g := by
      rw [List.forM_cons, List.forM_nil] at h
      obtain ⟨_, _, hpush, h⟩ := yields_bind_iff.mp h
      obtain ⟨-, rfl⟩ := yields_pure_iff.mp h
      exact hpush
    refine ⟨?_, ?_⟩
    · rw [after_concat, show (push p r).run.run (after p rows) = _ from hpush]
    · -- What crowds out would be the last row, which has been read, or one before.
      rintro ⟨before, r', rest, table, label, id, heq, hfails⟩
      rcases List.eq_nil_or_concat rest with rfl | ⟨rest, last, rfl⟩
      · obtain ⟨rfl, hr⟩ := List.append_inj' heq rfl
        obtain rfl := (List.cons.inj hr).1
        exact hpush.not_fails _ hfails
      · rw [List.concat_eq_append, ← List.cons_append, ← List.append_assoc] at heq
        obtain ⟨rfl, -⟩ := List.append_inj' heq rfl
        exact hnone ⟨before, r', rest, table, label, id, rfl, hfails⟩

end Graph
end NestedQuery
