import NestedQuery.Proofs.Graph.Chains
import NestedQuery.Proofs.Select.Draft

/-!
# Lineages

A draft keeps the tables above each level beside its plan. Both say the same: the chains of a
level are made of the row numbers of its lineage (`Draft.ofMapping_chainNames`), and what a row
has under these names is its chain (`Plan.ChainNames.carries_iff`).
-/

namespace NestedQuery

namespace Plan

/-- The chains of a level are made of the row numbers with these names, its own first. -/
inductive ChainNames (p : Plan) : Nat → List String → Prop
  | root {i : Nat} {level : Level} {name : String} :
      p.levels[i]? = some level → level.parent? = none → p.rowIds[level.rowId]? = some name →
      ChainNames p i [name]
  | child {i j : Nat} {level : Level} {name : String} {names : List String} :
      p.levels[i]? = some level → level.parent? = some j → ChainNames p j names →
      p.rowIds[level.rowId]? = some name → ChainNames p i (name :: names)

variable {p q : Plan} {i : Nat} {names : List String}

/-- What a row has under the names of a level is its chain. -/
theorem ChainNames.carries_iff (h : p.ChainNames i names) {r : Row} {k : Chain} :
    p.Carries r i k ↔ names.reverse.map r.rowNumber? = k.map some := by
  induction h generalizing k with
  | @root i level name hlevel hparent hname =>
    have hnumber : p.numberAt? r level.rowId = r.rowNumber? name := by
      rw [numberAt?, hname, Option.bind_some]
    constructor
    · intro hk
      cases hk with
      | root hlevel' _ hid =>
        obtain rfl := Option.some.inj (hlevel.symm.trans hlevel')
        rw [List.reverse_singleton, List.map_singleton, List.map_singleton, ← hnumber, hid]
      | child hlevel' hparent' _ _ =>
        obtain rfl := Option.some.inj (hlevel.symm.trans hlevel')
        exact absurd (hparent.symm.trans hparent') (by simp)
    · intro hk
      rw [List.reverse_singleton, List.map_singleton, eq_comm, List.map_eq_singleton_iff] at hk
      obtain ⟨id, rfl, hid⟩ := hk
      exact .root hlevel hparent (hnumber.trans hid.symm)
  | @child i j level name names hlevel hparent _ hname ih =>
    have hnumber : p.numberAt? r level.rowId = r.rowNumber? name := by
      rw [numberAt?, hname, Option.bind_some]
    rw [List.reverse_cons, List.map_append, List.map_singleton, eq_comm]
    constructor
    · intro hk
      cases hk with
      | root hlevel' hparent' _ =>
        obtain rfl := Option.some.inj (hlevel.symm.trans hlevel')
        exact absurd (hparent'.symm.trans hparent) (by simp)
      | child hlevel' hparent' hparents hid =>
        obtain rfl := Option.some.inj (hlevel.symm.trans hlevel')
        obtain rfl := Option.some.inj (hparent.symm.trans hparent')
        rw [List.map_append, List.map_singleton, ih.mp hparents, ← hnumber, hid]
    · intro hk
      obtain ⟨parents, last, rfl, hparents, hlast⟩ := List.map_eq_append_iff.mp hk
      obtain ⟨id, rfl, hid⟩ := List.map_eq_singleton_iff.mp hlast
      exact .child hlevel hparent (ih.mpr hparents.symm) (hnumber.trans hid.symm)

/-- The chains of a level without parent have one row number. -/
theorem ChainNames.eq_singleton (h : p.ChainNames i names) {level : Level} {name : String}
    (hlevel : p.levels[i]? = some level) (hparent : level.parent? = none)
    (hname : p.rowIds[level.rowId]? = some name) : names = [name] := by
  cases h with
  | root hlevel' _ hname' =>
    obtain rfl := Option.some.inj (hlevel.symm.trans hlevel')
    rw [Option.some.inj (hname.symm.trans hname')]
  | child hlevel' hparent' _ _ =>
    obtain rfl := Option.some.inj (hlevel.symm.trans hlevel')
    exact absurd (hparent.symm.trans hparent') (by simp)

/-- A plan that goes on keeps the names of the chains that it has. -/
theorem ChainNames.mono (h : p.ChainNames i names)
    (hlevels : ∀ (i : Nat) (level : Level), p.levels[i]? = some level →
      ∃ level', q.levels[i]? = some level' ∧ level'.parent? = level.parent? ∧
        level'.rowId = level.rowId)
    (hrowIds : p.rowIds <+: q.rowIds) : q.ChainNames i names := by
  -- Row numbers are only added at the end, so those that there are keep their places.
  have hname : ∀ {j : Nat} {name : String}, p.rowIds[j]? = some name →
      q.rowIds[j]? = some name := by
    intro j name hj
    obtain ⟨rest, hrest⟩ := hrowIds
    rw [← hrest, List.getElem?_append_left (List.getElem?_eq_some_iff.mp hj).1, hj]
  induction h with
  | root hlevel hparent hrowId =>
    obtain ⟨level', hlevel', hparent', hrowId'⟩ := hlevels _ _ hlevel
    exact .root hlevel' (hparent'.trans hparent) (hrowId' ▸ hname hrowId)
  | child hlevel hparent _ hrowId ih =>
    obtain ⟨level', hlevel', hparent', hrowId'⟩ := hlevels _ _ hlevel
    exact .child hlevel' (hparent'.trans hparent) ih (hrowId' ▸ hname hrowId)

theorem ChainNames.addRowId (h : p.ChainNames i names) (name : String) :
    (p.addRowId name).2.ChainNames i names := by
  refine h.mono (fun j level hlevel => ⟨level, ?_, rfl, rfl⟩) ?_
  · rwa [addRowId_levels]
  · rw [Plan.addRowId]
    split
    · exact List.prefix_rfl
    · exact List.prefix_append _ _

theorem ChainNames.addLevel (h : p.ChainNames i names) (new : Level) :
    (p.addLevel new).ChainNames i names := by
  refine h.mono (fun j level hlevel => ⟨level, ?_, rfl, rfl⟩) List.prefix_rfl
  rw [Plan.addLevel, List.getElem?_append_left (List.getElem?_eq_some_iff.mp hlevel).1, hlevel]

theorem ChainNames.addWitness (h : p.ChainNames i names) (n : Nat) (w : Witness) :
    (p.addWitness n w).ChainNames i names := by
  refine h.mono (fun j level hlevel => ?_) List.prefix_rfl
  rw [Plan.addWitness, List.getElem?_modify, hlevel]
  refine ⟨if n = j then level.addWitness w else level, rfl, ?_⟩
  split
  · rw [Level.addWitness]
    split <;> exact ⟨rfl, rfl⟩
  · exact ⟨rfl, rfl⟩

/-- A row number has its name at its place. -/
theorem addRowId_getElem? (p : Plan) (name : String) :
    (p.addRowId name).2.rowIds[(p.addRowId name).1]? = some name := by
  rw [addRowId]
  split
  · rename_i i hi
    obtain ⟨hlt, hname, -⟩ := List.idxOf?_eq_some_iff.mp hi
    exact List.getElem?_eq_some_iff.mpr ⟨hlt, hname⟩
  · exact List.getElem?_concat_length

end Plan

namespace Draft

/-! ### Places and levels -/

/-- There is a place for each level, and its lineage names the chains of the level. -/
structure IsLaidOut (d : Draft) : Prop where
  places_ne_nil : d.places ≠ []
  length_eq : d.places.length = d.plan.levels.length
  chainNames : ∀ i p, d.places[i]? = some p →
    d.plan.ChainNames i (p.lineage.map rowIdNameOf)

variable {s : Statement} {d : Draft}

theorem root_isLaidOut (s : Statement) : (root s).IsLaidOut where
  places_ne_nil := List.cons_ne_nil _ _
  length_eq := rfl
  chainNames i p hp := by
    cases i with
    | zero =>
      rw [← Option.some.inj hp]
      exact .root rfl rfl rfl
    | succ i => exact absurd hp (by simp [root])

/-- An output or a table is put at a level that there is. -/
theorem enclosing_lt {places : List Place} (hplaces : places ≠ []) (t : Target) :
    (enclosing places t).1 < places.length := by
  rw [enclosing]
  simp only
  generalize hbelow : places.zipIdx.filterMap _ = below
  cases hlast : below.getLast? with
  | none =>
    rw [Option.getD_none]
    exact List.length_pos_iff.mpr hplaces
  | some x =>
    rw [Option.getD_some]
    have hmem := List.mem_of_getLast? hlast
    rw [← hbelow] at hmem
    obtain ⟨⟨p, i⟩, hi, hx⟩ := List.mem_filterMap.mp hmem
    obtain ⟨rest, -, rfl⟩ := Option.map_eq_some_iff.mp hx
    exact (List.getElem?_eq_some_iff.mp (List.mem_zipIdx_iff_getElem?.mp hi)).1

theorem IsLaidOut.chainNames_lineage (h : d.IsLaidOut) {i : Nat} (hi : i < d.places.length) :
    d.plan.ChainNames i ((d.lineage i).map rowIdNameOf) := by
  have hp := List.getElem?_eq_getElem hi
  rw [lineage, hp]
  exact h.chainNames i _ hp

/-- Steps that leave the places alone and keep the chains keep the draft in order. -/
theorem IsLaidOut.of_places_eq (h : d.IsLaidOut) {d' : Draft} (hplaces : d'.places = d.places)
    (hlength : d'.plan.levels.length = d.plan.levels.length)
    (hnames : ∀ i names, d.plan.ChainNames i names → d'.plan.ChainNames i names) :
    d'.IsLaidOut where
  places_ne_nil := hplaces ▸ h.places_ne_nil
  length_eq := by rw [hplaces, hlength, h.length_eq]
  chainNames i p hp := hnames i _ (h.chainNames i p (hplaces ▸ hp))

/-- A level below a level of the plan, and its place. -/
theorem IsLaidOut.addLevel (h : d.IsLaidOut) {parent : Nat} (hparent : parent < d.places.length)
    {level : Level} (hlevel : level.parent? = some parent) {p : Place} {t : TableId}
    (hname : d.plan.rowIds[level.rowId]? = some (rowIdNameOf t))
    (hp : p.lineage = t :: d.lineage parent) :
    IsLaidOut { d with plan := d.plan.addLevel level, places := d.places ++ [p] } where
  places_ne_nil hnil := List.append_ne_nil_of_right_ne_nil _ (List.cons_ne_nil p []) hnil
  length_eq := by rw [Plan.addLevel, List.length_append, List.length_append, h.length_eq]; rfl
  chainNames i p' hp' := by
    rcases getElem?_concat_eq_some_iff.mp hp' with hold | ⟨rfl, rfl⟩
    · exact (h.chainNames i p' hold).addLevel level
    · rw [hp, List.map_cons]
      refine .child ?_ hlevel ((h.chainNames_lineage hparent).addLevel level) hname
      rw [Plan.addLevel, h.length_eq, List.getElem?_concat_length]

theorem IsLaidOut.rowId (h : d.IsLaidOut) (t : TableId) : (d.rowId t).2.IsLaidOut :=
  h.of_places_eq rfl (congrArg List.length (Plan.addRowId_levels _ _))
    fun _ _ hnames => hnames.addRowId _

theorem IsLaidOut.addTable (h : d.IsLaidOut) (m : MappedTable) : (d.addTable s m).IsLaidOut := by
  rw [Draft.addTable]
  simp only
  have hparent := enclosing_lt h.places_ne_nil m.target
  generalize (enclosing d.places m.target).1 = parent at hparent
  split
  · exact h
  · exact (h.rowId m.table).addLevel hparent rfl (Plan.addRowId_getElem? _ _) rfl

theorem IsLaidOut.addWitness (h : d.IsLaidOut) (level : Nat) (t : TableId) :
    (d.addWitness s level t).IsLaidOut :=
  (h.rowId t).of_places_eq rfl (List.length_modify ..) fun _ _ hnames => hnames.addWitness _ _

theorem IsLaidOut.addOutput (h : d.IsLaidOut) (o : Output Cell) :
    (d.addOutput s o).IsLaidOut := by
  rw [Draft.addOutput]
  simp only
  generalize (enclosing d.places o.target).1 = level
  have hwitnesses : ((witnessTables (d.lineage level) o.value).foldl
      (Draft.addWitness s level) d).IsLaidOut :=
    List.foldlRecOn _ _ h fun _ hd t _ => hd.addWitness level t
  exact hwitnesses.of_places_eq rfl rfl fun _ _ hnames =>
    hnames.mono (fun _ l hl => ⟨l, hl, rfl, rfl⟩) List.prefix_rfl

/-- **Each output is put at a level whose chains are named by the lineage.** -/
theorem ofMapping_chainNames (s : Statement) (tables : List MappedTable)
    (os : List (Output Cell)) {i : Nat} {o : Output Cell} (ho : os[i]? = some o) :
    ∃ c, (ofMapping s tables os).plan.columns[i]? = some c ∧
      (ofMapping s tables os).plan.ChainNames c.level
        (((ofMapping s tables os).lineage c.level).map rowIdNameOf) := by
  have hlaid : (ofMapping s tables os).IsLaidOut :=
    List.foldlRecOn _ _ (List.foldlRecOn _ _ (root_isLaidOut s) fun _ hd m _ => hd.addTable m)
      fun _ hd o _ => hd.addOutput o
  have hcolumns := (ofMapping_collects s tables os).1.columns
  obtain ⟨hi, rfl⟩ := List.getElem?_eq_some_iff.mp ho
  have hi' : i < (ofMapping s tables os).plan.columns.length := hcolumns.length_eq ▸ hi
  refine ⟨_, List.getElem?_eq_getElem hi', hlaid.chainNames_lineage ?_⟩
  have hlevel := (List.forall₂_iff_get.mp hcolumns).2 i hi hi'
  simp only [List.get_eq_getElem] at hlevel
  rw [hlevel]
  exact enclosing_lt hlaid.places_ne_nil _

end Draft

end NestedQuery
