import NestedQuery.Proofs.Graph.Push

/-!
# Rows that are refused

A row that can be read (`Row.IsReadable`) is refused only for what it says about elements that are
there already: it brings a second element where there is place for one, or it has a known chain
with other witnesses. `Plan.Refuses` says this of the elements of one level, beside `Plan.Enters`,
and `push_fails` that these are the only failures.
-/

namespace NestedQuery

/-- A row that can be read: it has the row number columns of the plan, every cell of the plan
converts, and its root row number is not null. -/
structure Row.IsReadable (p : Plan) (r : Row) : Prop where
  /-- The row number columns are there. -/
  rowId_mem : ∀ name ∈ p.rowIds, name ∈ r.columns
  /-- The columns are there, and their cells convert. -/
  document : ∀ c ∈ p.columns, (r.document? c).isSome
  /-- The root row number is not null. -/
  root : ∃ id, p.Carries r 0 [id]

/-- Why a row is refused by the elements of the level at the place `i`. -/
inductive Plan.Refuses (p : Plan) (r : Row) (i : Nat) (level : Level) (es : List Element) :
    Error → Prop
  /-- The row has the chain of an element, and disagrees with it about a witness. -/
  | ambiguous {e : Element} {w : Witness} : e ∈ es → p.chain? r i = some e.chain →
      Graph.disagreement? level.witnesses e.witnesses (p.witnessNumbers r level) = some w →
      Refuses p r i level es (.crowded w.table level.label .ambiguousValue)
  /-- The row has a chain that is new, and there is place for one element, which is taken. -/
  | crowded {parent : Chain} {id : Int64} {e : Element} : p.chain? r i = some (parent ++ [id]) →
      (∀ e ∈ es, e.chain ≠ parent ++ [id]) → level.parent?.isSome → level.single → e ∈ es →
      e.chain.dropLast = parent → Refuses p r i level es (.crowded level.table level.label
        (.secondRow id))

/-! ### Steps that do not fail -/

theorem Build.fails_ofResult_iff {α : Type} {x : Result α} {e : Error} {g : Graph} :
    Fails (Build.ofResult x) g e ↔ x = .error e := by
  cases x with
  | error e' => rw [Build.ofResult, fails_throw_iff, Except.error.injEq]
  | ok a => exact iff_of_false not_fails_pure (by simp)

theorem Build.ofResult_not_fails {α : Type} {x : Result α} {a : α} (h : x = .ok a) (g : Graph)
    (e : Error) : ¬ Fails (Build.ofResult x) g e := by
  rw [fails_ofResult_iff, h]
  exact nofun

namespace Graph

open Build

variable {p : Plan} {r : Row}

theorem positions_eq_ok_of_isReadable (hr : r.IsReadable p) :
    ∃ ps, p.positions r.columns = .ok ps := by
  have hcolumns : ∀ c ∈ p.columns, ∃ i, findColumn r.columns c.name = .ok i := by
    intro c hc
    obtain ⟨d, hd⟩ := Option.isSome_iff_exists.mp (hr.document c hc)
    obtain ⟨v, hv, -⟩ := Option.bind_eq_some_iff.mp hd
    obtain ⟨i, hi, -⟩ := Option.bind_eq_some_iff.mp hv
    exact ⟨i, findColumn_eq_ok_iff.mpr hi⟩
  have hrowIds : ∀ name ∈ p.rowIds, ∃ i, findColumn r.columns name = .ok i := by
    intro name hname
    obtain ⟨i, hi⟩ := Option.isSome_iff_exists.mp
      (List.isSome_idxOf?.mpr (hr.rowId_mem name hname))
    exact ⟨i, findColumn_eq_ok_iff.mpr hi⟩
  obtain ⟨columns, hcolumns⟩ := Result.exists_mapM_eq_ok hcolumns
  obtain ⟨rowIds, hrowIds⟩ := Result.exists_mapM_eq_ok hrowIds
  refine ⟨⟨columns, rowIds⟩, ?_⟩
  rw [Plan.positions, Result.bind_eq_ok_iff]
  exact ⟨columns, hcolumns, Result.bind_eq_ok_iff.mpr ⟨rowIds, hrowIds, rfl⟩⟩

theorem resolvePositions_not_fails (hr : r.IsReadable p) (g : Graph) (e : Error) :
    ¬ Fails (resolvePositions p r) g e := by
  obtain ⟨ps, hps⟩ := positions_eq_ok_of_isReadable hr
  intro h
  rw [resolvePositions] at h
  obtain ⟨g', _, -, h⟩ := fails_bind_of_not_fails not_fails_get h
  cases hknown : g'.positions? with
  | some qs =>
    rw [hknown] at h
    exact not_fails_pure h
  | none =>
    rw [hknown] at h
    obtain ⟨_, _, -, h⟩ := fails_bind_of_not_fails (ofResult_not_fails hps _ e) h
    obtain ⟨_, _, -, h⟩ := fails_bind_of_not_fails not_fails_modify h
    exact not_fails_pure h

theorem warn_not_fails {index : Nat} {c : PlanColumn} (g : Graph) (e : Error) :
    ¬ Fails (warn index c) g e := by
  intro h
  rw [warn] at h
  obtain ⟨g', _, -, h⟩ := fails_bind_of_not_fails not_fails_get h
  split at h
  · exact not_fails_pure h
  · obtain ⟨_, _, -, h⟩ := fails_bind_of_not_fails not_fails_modify h
    exact not_fails_modify h

/-- A cell that converts is read. -/
theorem readCell_not_fails {index position : Nat} {c : PlanColumn}
    (hposition : r.columns.idxOf? c.name = some position) (hc : (r.document? c).isSome) (g : Graph)
    (e : Error) : ¬ Fails (readCell r index position c) g e := by
  obtain ⟨d, hd⟩ := Option.isSome_iff_exists.mp hc
  rw [Row.document?, Row.find?, hposition, Option.bind_some] at hd
  obtain ⟨v, hv, hd⟩ := Option.bind_eq_some_iff.mp hd
  intro h
  rw [readCell, hv] at h
  -- What is left to fail is the warning, and that never does.
  cases hconvert : v.convert c.type with
  | error e' =>
    rw [hconvert] at hd
    cases hd
  | ok _ =>
    obtain ⟨converted, _, -, h⟩ := fails_bind_of_not_fails (ofResult_not_fails hconvert g e) h
    by_cases hinefficient : converted.inefficient
    · simp only [if_pos hinefficient] at h
      obtain ⟨_, _, -, h⟩ := fails_bind_of_not_fails (warn_not_fails _ e) h
      exact not_fails_pure h
    · simp only [if_neg hinefficient] at h
      exact not_fails_pure h

theorem mapM_not_fails {α β : Type} {f : α → Build β} {l : List α}
    (hf : ∀ a ∈ l, ∀ g e, ¬ Fails (f a) g e) (g : Graph) (e : Error) :
    ¬ Fails (l.mapM f) g e := by
  intro h
  induction l generalizing g with
  | nil =>
    rw [List.mapM_nil] at h
    exact not_fails_pure h
  | cons a l ih =>
    rw [List.mapM_cons] at h
    obtain ⟨_, g₁, -, h⟩ := fails_bind_of_not_fails (hf a (List.mem_cons_self ..) g e) h
    have hl := ih (fun a' ha' => hf a' (List.mem_cons_of_mem a ha')) g₁
    obtain ⟨_, _, -, h⟩ := fails_bind_of_not_fails hl h
    exact not_fails_pure h

theorem readCells_not_fails {ps : Positions} {i : Nat} (hr : r.IsReadable p)
    (hps : p.positions r.columns = .ok ps) (g : Graph) (e : Error) :
    ¬ Fails (readCells p ps r i) g e := by
  obtain ⟨-, hzip⟩ := List.forall₂_iff_zip.mp (positions_eq_ok hps).1
  refine mapM_not_fails (fun column hcolumn => ?_) g e
  have hmem := List.fst_mem_of_mem_zipIdx (List.mem_of_mem_filter hcolumn)
  exact readCell_not_fails (hzip hmem) (hr.document _ (List.of_mem_zip hmem).1)

theorem create_not_fails {ps : Positions} {index : Nat} {level : Level} {id : Int64}
    {witnesses : List (Option Int64)} (hr : r.IsReadable p)
    (hps : p.positions r.columns = .ok ps) (g : Graph) (e : Error) :
    ¬ Fails (create p ps r index level id witnesses) g e := by
  intro h
  rw [create] at h
  obtain ⟨_, _, -, h⟩ := fails_bind_of_not_fails (readCells_not_fails hr hps g e) h
  obtain ⟨_, _, -, h⟩ := fails_bind_of_not_fails not_fails_get h
  obtain ⟨_, _, -, h⟩ := fails_bind_of_not_fails not_fails_modify h
  obtain ⟨_, _, -, h⟩ := fails_bind_of_not_fails not_fails_modify h
  exact not_fails_pure h

/-! ### Steps that may fail -/

variable {es : List Element} {g : Graph} {e : Error} {level : Level}

/-- The slot for an element is found in the element above it. -/
theorem slotFor?_of_above (hp : p.WellFormed) (hg : g.Represents p es) {g' : Graph}
    (hnodes : g.nodes <+: g'.nodes) {index parent : Nat} {a : Element}
    (hlevel : p.levels[index]? = some level) (hparent : level.parent? = some a.level)
    (ha : es[parent]? = some a) :
    ∃ slot, g'.slotFor? p index parent = some (p.nodeOf es a, slot) ∧
      (p.nodeOf es a).slots[slot]? = some (p.slotOf es a.chain index) := by
  have hmem : index ∈ p.children a.level := by
    rw [hp.children_eq _ (hg.level_lt (List.mem_of_getElem? ha))]
    exact Plan.mem_childLevels.mpr ⟨level, hlevel, hparent⟩
  obtain ⟨slot, hslot⟩ := Option.isSome_iff_exists.mp (List.isSome_idxOf?.mpr hmem)
  obtain ⟨hlt, hchild, -⟩ := List.idxOf?_eq_some_iff.mp hslot
  have hnode : g'.nodes[parent]? = some (p.nodeOf es a) := by
    -- Nodes are only added behind, so the element above is where it was.
    obtain ⟨rest, hrest⟩ := hnodes
    have hplace := (List.getElem?_eq_some_iff.mp ha).1
    rw [← hrest, List.getElem?_append_left (by rwa [hg.nodes, List.length_map]), hg.nodes,
      List.getElem?_map, ha, Option.map_some]
  refine ⟨slot, ?_, ?_⟩
  · have hslot : (p.children (p.nodeOf es a).level).idxOf? index = some slot := hslot
    rw [slotFor?, hnode]
    simp only [Option.bind_eq_bind, Option.bind_some, hslot]
    rfl
  · rw [Plan.nodeOf, List.getElem?_map, List.getElem?_eq_getElem hlt, hchild, Option.map_some]

/-- An element is not linked if the slot for it is full. -/
theorem link_fails {parent index place slot : Nat} {id : Int64} {n : Node}
    (hfound : g.slotFor? p index parent = some (n, slot))
    (h : Fails (link p (some parent) index level place id) g e) :
    e = .crowded level.table level.label (.secondRow id) ∧
      ∃ s, n.slots[slot]? = some s ∧ s.isFull = true := by
  rw [link] at h
  obtain ⟨_, _, hget, h⟩ := fails_bind_of_not_fails not_fails_get h
  obtain ⟨rfl, rfl⟩ := yields_get_iff.mp hget
  rw [hfound] at h
  by_cases hfull : (n.slots[slot]?).any ChildSlot.isFull = true
  · simp only [if_pos hfull] at h
    obtain h | ⟨_, _, h, -⟩ := fails_bind_iff.mp h
    · exact ⟨(fails_throw_iff.mp h).symm, (Option.any_eq_true _ _).mp hfull⟩
    · exact absurd h not_yields_throw
  · simp only [if_neg hfull] at h
    exact absurd h not_fails_modify

/-- Making an element fails only if there is place for one below the chain, which is taken. -/
theorem make_fails (hp : p.WellFormed) {ps : Positions} {index : Nat} {parent? : Option Nat}
    {k : Chain} {id : Int64} {witnesses : List (Option Int64)} (hr : r.IsReadable p)
    (hps : p.positions r.columns = .ok ps) (hg : g.Represents p es)
    (hlevel : p.levels[index]? = some level) (habove : Above es level parent? k)
    (h : Fails (make p ps r index level parent? (k ++ [id]) id witnesses) g e) :
    e = .crowded level.table level.label (.secondRow id) ∧ level.parent?.isSome ∧ level.single ∧
      ∃ a ∈ es, a.isBelow index k := by
  rw [make] at h
  -- The cells are read and the node is entered; only the link is left to fail.
  obtain ⟨_, _, hcreate, h⟩ := fails_bind_of_not_fails (create_not_fails hr hps g e) h
  obtain ⟨-, _, -, _, _, rfl⟩ := create_yields hps hcreate
  obtain ⟨_, g₂, henter, h⟩ := fails_bind_of_not_fails not_fails_modify h
  have hnodes : g.nodes <+: g₂.nodes := by
    rw [← yields_modify_iff.mp henter]
    exact List.prefix_append _ _
  obtain hlink | ⟨_, _, -, h⟩ := fails_bind_iff.mp h
  · cases habove with
    | root hroot => exact absurd hlink not_fails_modify
    | @below _ a hparent ha =>
      obtain ⟨slot, hfound, hslot⟩ := slotFor?_of_above hp hg hnodes hlevel hparent ha
      obtain ⟨rfl, s, hs, hfull⟩ := link_fails hfound hlink
      -- The full slot is the one the elements demand, so one of them stands in it.
      obtain rfl := Option.some.inj (hslot.symm.trans hs)
      obtain ⟨hsingle, htaken⟩ := Plan.isBelow_of_isFull_slotOf hfull
      rw [Plan.isSingle, hlevel, Option.any_some] at hsingle
      exact ⟨rfl, Option.isSome_of_eq_some hparent, hsingle, htaken⟩
  · exact absurd h not_fails_pure

theorem checkWitnesses_eq_error {seen now : List (Option Int64)}
    (h : checkWitnesses level seen now = .error e) :
    ∃ w, disagreement? level.witnesses seen now = some w ∧
      e = .crowded w.table level.label .ambiguousValue := by
  rw [checkWitnesses] at h
  cases hw : disagreement? level.witnesses seen now with
  | none =>
    rw [hw] at h
    exact absurd h nofun
  | some w =>
    rw [hw] at h
    exact ⟨w, rfl, (Except.error.inj h).symm⟩

/-- **A visit that fails is refused** by the elements of its level. -/
theorem visit_fails (hp : p.WellFormed) {ps : Positions} {index : Nat} {parent? : Option Nat}
    {k : Chain} {id : Int64} (hr : r.IsReadable p) (hps : p.positions r.columns = .ok ps)
    (hg : g.Represents p es) (hlevel : p.levels[index]? = some level)
    (habove : Above es level parent? k) (hchain : p.chain? r index = some (k ++ [id]))
    (h : Fails (visit p ps r (ps.rowNumbers r) index level parent? (k ++ [id]) id) g e) :
    p.Refuses r index level (elementsAt es index) e := by
  rw [visit] at h
  simp only [rowNumbers_getElem?_join hps] at h
  obtain ⟨_, _, hget, h⟩ := fails_bind_of_not_fails not_fails_get h
  obtain ⟨rfl, rfl⟩ := yields_get_iff.mp hget
  cases hfind : g.index.lookup (index, k ++ [id]) with
  -- A known element can only disagree about a witness.
  | some place =>
    rw [hfind] at h
    obtain ⟨a, ha, halevel, hachain⟩ := (hg.index _ _ _).mp hfind
    obtain hcheck | ⟨_, _, -, h⟩ := fails_bind_iff.mp h
    · rw [fails_ofResult_iff, witnessesAt, hg.nodes, List.getElem?_map, ha] at hcheck
      obtain ⟨w, hw, rfl⟩ := checkWitnesses_eq_error hcheck
      exact .ambiguous (mem_elementsAt.mpr ⟨List.mem_of_getElem? ha, halevel⟩)
        (hachain ▸ hchain) hw
    · exact absurd h not_fails_pure
  | none =>
    -- A new one can only find its place taken.
    rw [hfind] at h
    have hnew := hg.new_of_lookup hfind
    obtain ⟨rfl, hparent, hsingle, a, ha, hbelow⟩ := make_fails hp hr hps hg hlevel habove h
    obtain ⟨halevel, hachain⟩ := Element.isBelow_iff.mp hbelow
    refine .crowded hchain (fun e he heq => ?_) hparent hsingle
      (mem_elementsAt.mpr ⟨ha, halevel⟩) hachain
    obtain ⟨he, helevel⟩ := mem_elementsAt.mp he
    exact hnew e he ⟨helevel, heq⟩

/-! ### The levels of a row -/

variable {index : Nat} {visited : List Visited}

/-- **A level that fails is refused** by its elements. -/
theorem visitLevel_fails (hp : p.WellFormed) {ps : Positions} (hr : r.IsReadable p)
    (hps : p.positions r.columns = .ok ps) (hg : g.Represents p es)
    (hlevel : p.levels[index]? = some level) (hvisits : Visits es visited (p.chains r index))
    (h : Fails (visitLevel p ps r (ps.rowNumbers r) index visited level) g e) :
    p.Refuses r index level (elementsAt es index) e := by
  obtain ⟨-, heq⟩ | ⟨hroot, hchain, -⟩ | ⟨parent?, k, id, hk, hchain, heq⟩ :=
    visitLevel_cases hps hlevel hvisits
  · rw [heq] at h
    exact absurd h not_fails_pure
  · -- Only level 0 is a root, and its row number is not null.
    obtain rfl := (hp.parent_eq_none_iff _ _ hlevel).mp hroot
    obtain ⟨id, hcarries⟩ := hr.root
    rw [(Plan.chain?_eq_some_iff hp).mpr hcarries] at hchain
    cases hchain
  · rw [heq] at h
    obtain h | ⟨_, _, -, h⟩ := fails_bind_iff.mp h
    · exact visit_fails hp hr hps hg hlevel hk hchain h
    · exact absurd h not_fails_pure

theorem pushLevels_fails (hp : p.WellFormed) {ps : Positions} {levels : List Level}
    (hr : r.IsReadable p) (hps : p.positions r.columns = .ok ps) (hg : g.Represents p es)
    (hlevels : p.levels.drop index = levels) (hvisits : Visits es visited (p.chains r index))
    (h : Fails (pushLevels p ps r (ps.rowNumbers r) index visited levels) g e) :
    ∃ i level, index ≤ i ∧ p.levels[i]? = some level ∧
      p.Refuses r i level (elementsAt es i) e := by
  induction levels generalizing index g es visited with
  | nil => exact absurd h not_fails_pure
  | cons level rest ih =>
    obtain ⟨hlevel, hrest⟩ := levels_drop_eq_cons hlevels
    rw [pushLevels_cons] at h
    obtain h | ⟨v, g₁, hvisit, h⟩ := fails_bind_iff.mp h
    · exact ⟨index, level, le_rfl, hlevel, visitLevel_fails hp hr hps hg hlevel hvisits h⟩
    · obtain ⟨es₁, hv⟩ := visitLevel_yields hp hps hg hlevel hvisits hvisit
      obtain ⟨i, level', hi, hlevel', hrefuses⟩ :=
        ih hv.represents hrest (hv.visits hlevel hvisits) h
      -- The elements that refuse the row were there before the visit at this level.
      rw [hv.others i (by omega)] at hrefuses
      exact ⟨i, level', by omega, hlevel', hrefuses⟩

/-- **A row that can be read fails only if it is refused** by the elements of some level. -/
theorem push_fails (hp : p.WellFormed) (hr : r.IsReadable p) (hg : g.Represents p es)
    (hknown : ∀ ps, g.positions? = some ps → p.positions r.columns = .ok ps)
    (h : Fails (push p r) g e) :
    ∃ i level, p.levels[i]? = some level ∧ p.Refuses r i level (elementsAt es i) e := by
  rw [push] at h
  obtain ⟨ps, _, hresolve, h⟩ := fails_bind_of_not_fails (resolvePositions_not_fails hr g e) h
  obtain ⟨rfl, hps, hg₁⟩ := hg.resolvePositions hknown hresolve
  obtain ⟨i, level, -, hlevel, hrefuses⟩ :=
    pushLevels_fails hp hr hps hg₁ List.drop_zero (visits_nil es) h
  exact ⟨i, level, hlevel, hrefuses⟩

end Graph

end NestedQuery
