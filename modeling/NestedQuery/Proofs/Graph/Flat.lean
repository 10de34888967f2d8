import NestedQuery.Proofs.Graph.Grouping
import NestedQuery.Proofs.Graph.Shape

/-!
# Plans with one level

Where rows have the columns of a plan is read off the first of them, so the others may as well have
its header (`forM_push_aligned`). With one level only, every document is put together from the cells
of one row: the first row with the row number of the document (`finish_of_flat`).
-/

namespace NestedQuery

/-! ### Headers -/

/-- The row with its cells under other names. -/
def Row.under (header : List String) (r : Row) : Row :=
  { r with columns := header }

/-- The rows under the names of the first one. -/
def Row.aligned (rows : List Row) : List Row :=
  rows.map (Row.under ((rows.head?.map Row.columns).getD []))

theorem Row.columns_of_mem_aligned {rows : List Row} {r : Row} (h : r ∈ Row.aligned rows) :
    r.columns = (rows.head?.map Row.columns).getD [] := by
  obtain ⟨r', -, rfl⟩ := List.mem_map.mp h
  rfl

namespace Graph

open Build

/-- The levels of a row are visited without a look at its header. -/
theorem pushLevels_under (p : Plan) (ps : Positions) (r : Row) (header : List String)
    (rowNumbers : List (Option Int64)) (index : Nat) (visited : List Visited)
    (levels : List Level) :
    pushLevels p ps (r.under header) rowNumbers index visited levels =
      pushLevels p ps r rowNumbers index visited levels := by
  induction levels generalizing index visited with
  | nil => rfl
  | cons level rest ih =>
    rw [pushLevels_cons, pushLevels_cons]
    refine bind_congr fun v => ?_
    exact ih (index + 1) (visited ++ [v])

/-- Where the positions are known the header of a row does not matter. -/
theorem push_under {p : Plan} {r : Row} {header : List String} {g g' : Graph} {u : Unit}
    (hheader : g.positions? = none → r.columns = header) (h : Yields (push p r) g u g') :
    Yields (push p (r.under header)) g u g' := by
  obtain ⟨ps, g₁, hps, h⟩ := yields_bind_iff.mp h
  refine yields_bind_iff.mpr ⟨ps, g₁, ?_, (pushLevels_under p ps r header _ 0 [] _).symm ▸ h⟩
  unfold resolvePositions at hps ⊢
  obtain ⟨_, _, hget, hps⟩ := yields_bind_iff.mp hps
  obtain ⟨rfl, rfl⟩ := yields_get_iff.mp hget
  refine yields_bind_iff.mpr ⟨_, _, hget, ?_⟩
  cases hknown : g.positions? with
  | some qs => rwa [hknown] at hps
  | none =>
    rw [hknown] at hps
    rwa [Row.under, ← hheader hknown]

theorem forM_push_under {p : Plan} (hp : p.WellFormed) {header : List String} {rows : List Row}
    {g g' : Graph} {es : List Element} (hg : g.Represents p es)
    (hknown : ∀ ps, g.positions? = some ps → p.positions header = .ok ps)
    (hfirst : g.positions? = none → ∀ r, rows.head? = some r → r.columns = header)
    (h : Yields (rows.forM (push p)) g () g') :
    Yields ((rows.map (Row.under header)).forM (push p)) g () g' := by
  induction rows generalizing g es with
  | nil => exact h
  | cons r rows ih =>
    obtain ⟨_, g₁, hpush, h⟩ := yields_bind_iff.mp h
    have hunder := push_under (fun hnone => hfirst hnone r rfl) hpush
    obtain ⟨⟨ps, hpositions, -⟩, es₁, hg₁, -⟩ := push_yields hp hg hknown hunder
    have hknown₁ := positions_of_push hp hg hknown hunder
    refine yields_bind_iff.mpr ⟨_, g₁, hunder, ih hg₁ hknown₁ (fun hnone => ?_) h⟩
    rw [hpositions] at hnone
    cases hnone

/-- **The first row says where the columns are**, whatever the headers of the others. -/
theorem forM_push_aligned {p : Plan} (hp : p.WellFormed) {rows : List Row} {g : Graph}
    (h : Yields (rows.forM (push p)) {} () g) :
    Yields ((Row.aligned rows).forM (push p)) {} () g := by
  refine forM_push_under hp (represents_nil p) nofun (fun _ r hr => ?_) h
  rw [hr]
  rfl

end Graph

/-! ### One level -/

namespace Plan

/-- The document that a row has at a target, for the column that lands there. -/
def valueAt (p : Plan) (r : Row) (t : Target) : Document :=
  ((p.columns.find? fun c => c.target == t).bind r.document?).getD .null

theorem find?_target_of_nodup {cs : List PlanColumn} (h : (cs.map PlanColumn.target).Nodup)
    {c : PlanColumn} (hc : c ∈ cs) : (cs.find? fun c' => c'.target == c.target) = some c := by
  have hfound : (cs.find? fun c' => c'.target == c.target).isSome :=
    List.find?_isSome.mpr ⟨c, hc, beq_self_eq_true _⟩
  obtain ⟨c', hc'⟩ := Option.isSome_iff_exists.mp hfound
  have htarget : c'.target = c.target := by simpa using List.find?_some hc'
  rw [hc', List.inj_on_of_nodup_map h (List.mem_of_find?_eq_some hc') hc htarget]

/-- The cells of a row stand at the targets of the columns. -/
theorem cells?_eq_of_nodup {p : Plan} (hlevel : ∀ c ∈ p.columns, c.level = 0)
    (hnodup : (p.columns.map PlanColumn.target).Nodup) {r : Row} {cells : List (Target × Document)}
    (h : p.cells? r 0 = some cells) :
    cells = (p.columns.map PlanColumn.target).map fun t => (t, p.valueAt r t) := by
  have hall : p.columnsAt 0 = p.columns :=
    List.filter_eq_self.mpr fun c hc => by rw [hlevel c hc, beq_self_eq_true]
  rw [cells?, hall, mapM_eq_some_iff] at h
  rw [List.map_map, eq_comm, ← List.forall₂_eq_eq_eq, List.forall₂_map_left_iff]
  refine ((List.forall₂_and_left _ _).mpr ⟨fun c hc => hc, h⟩).imp fun c cell hmem => ?_
  obtain ⟨hc, hcell⟩ := hmem
  obtain ⟨d, hd, rfl⟩ := Option.map_eq_some_iff.mp hcell
  show (c.target, p.valueAt r c.target) = (c.target, d)
  rw [valueAt, find?_target_of_nodup hnodup hc, Option.bind_some, hd, Option.getD_some]

theorem childLevels_of_flat {p : Plan} (hp : p.WellFormed) (hflat : p.levels.length = 1) :
    p.childLevels 0 = [] := by
  refine List.eq_nil_iff_forall_not_mem.mpr fun j hj => ?_
  obtain ⟨hpos, hlt⟩ := hp.lt_of_mem_childLevels hj
  omega

end Plan

namespace Graph

/-- **With one level, each document is made of the cells of one row.** -/
theorem finish_of_flat {p : Plan} (hp : p.WellFormed) (hflat : p.levels.length = 1)
    (hnodup : (p.columns.map PlanColumn.target).Nodup) {rows : List Row} {g : Graph}
    (h : Yields (rows.forM (push p)) {} () g) :
    List.Forall₂ (fun id d => ∃ r, p.firstRow? (Row.aligned rows) 0 [id] = some r ∧
        d = (Shape.insertAll ((p.columns.map PlanColumn.target).map fun t => (t, p.valueAt r t))
          .empty).toDocument)
      (p.idsBelow (Row.aligned rows) 0 []) (g.finish p) := by
  obtain ⟨es, hg, htracks⟩ : ∃ es, g.Represents p es ∧ ∀ i < p.levels.length,
      p.Tracks (Row.aligned rows) i (elementsAt es i) := tracks_of_forM_push hp
    (fun r hr => Row.columns_of_mem_aligned hr) (fun ps hps => absurd hps (by simp))
    (represents_nil p) (fun i _ => Plan.tracks_nil p i) (forM_push_aligned hp h)
  have hroot := htracks 0 hp.levels_pos
  rw [finish_eq_map_element hp hg htracks, List.forall₂_map_right_iff, List.forall₂_same]
  intro id hid
  obtain ⟨e, he, hchain⟩ := hroot.mem_idsBelow.mp hid
  obtain ⟨r, hfirst, hcells⟩ := hroot.first e he
  rw [hchain] at hfirst
  have hlevel : ∀ c ∈ p.columns, c.level = 0 := fun c hc => by
    have hlt := hp.column_lt c hc
    omega
  refine ⟨r, hfirst, ?_⟩
  -- All columns are of the one level, so the cells of the element are the row itself.
  have hown : p.cellsOf (Row.aligned rows) 0 [id] = e.cells := by
    rw [Plan.cellsOf, ← List.nil_append [id], hfirst, Option.bind_some, hcells, Option.getD_some]
  rw [Plan.element_eq, Plan.childLevels_of_flat hp hflat, hown,
    Plan.cells?_eq_of_nodup hlevel hnodup hcells]
  rfl

end Graph

end NestedQuery
