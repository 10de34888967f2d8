import NestedQuery.Proofs.Graph.Grouping
import NestedQuery.Proofs.Graph.Refusal

/-!
# Rows in conflict

Two rows are in conflict if they want different elements where there is place for one, or if they
share an element and give one of its witnesses different row numbers (`Plan.Conflict`). Reading
compares a row only with elements, which stand for the first rows with their chains. All rows of
an element agree with it about its witnesses (`Plan.Agrees`), so comparing with the element is
comparing with each of them, and rows fail exactly if two of them are in conflict, in any order
(`forM_push_fails_iff_conflict`).
-/

namespace NestedQuery

namespace Plan

/-- Two rows that cannot both be read. A row number that is null is not the row number of an
element, but it counts as a value of a witness. -/
inductive Conflict (p : Plan) (r r' : Row) : Prop
  /-- The rows share the chain above a level with place for one element, and want different
  ones. -/
  | crowded {i j : Nat} {level : Level} {k : Chain} {id id' : Int64} :
      p.levels[i]? = some level → level.single → level.parent? = some j →
      p.Carries r j k → p.Carries r' j k →
      p.numberAt? r level.rowId = some id → p.numberAt? r' level.rowId = some id' → id ≠ id' →
      Conflict p r r'
  /-- The rows share the chain of a level, and differ about a witness. -/
  | ambiguous {i : Nat} {level : Level} {k : Chain} {w : Witness} :
      p.levels[i]? = some level → p.Carries r i k → p.Carries r' i k → w ∈ level.witnesses →
      p.numberAt? r w.rowId ≠ p.numberAt? r' w.rowId → Conflict p r r'

/-! ### Witnesses -/

/-- Two rows that agree about all witnesses of a level have the same row numbers for them. -/
theorem disagreement?_eq_none (p : Plan) (r r' : Row) (ws : List Witness)
    (h : Graph.disagreement? ws (ws.map fun w => p.numberAt? r w.rowId)
      (ws.map fun w => p.numberAt? r' w.rowId) = none) :
    (ws.map fun w => p.numberAt? r w.rowId) = ws.map fun w => p.numberAt? r' w.rowId := by
  induction ws with
  | nil => rfl
  | cons w ws ih =>
    simp only [List.map_cons, Graph.disagreement?] at h ⊢
    by_cases hw : p.numberAt? r w.rowId = p.numberAt? r' w.rowId
    · rw [if_pos hw] at h
      rw [hw, ih h]
    · rw [if_neg hw] at h
      exact absurd h nofun

/-- Rows that disagree have different row numbers for a witness of the level. -/
theorem disagreement?_eq_some {p : Plan} {r r' : Row} {ws : List Witness} {w : Witness}
    (h : Graph.disagreement? ws (ws.map fun w => p.numberAt? r w.rowId)
      (ws.map fun w => p.numberAt? r' w.rowId) = some w) :
    w ∈ ws ∧ p.numberAt? r w.rowId ≠ p.numberAt? r' w.rowId := by
  induction ws with
  | nil => exact absurd h nofun
  | cons w' ws ih =>
    simp only [List.map_cons, Graph.disagreement?] at h
    by_cases hw : p.numberAt? r w'.rowId = p.numberAt? r' w'.rowId
    · rw [if_pos hw] at h
      exact ⟨List.mem_cons_of_mem _ (ih h).1, (ih h).2⟩
    · rw [if_neg hw] at h
      obtain rfl := Option.some.inj h
      exact ⟨List.mem_cons_self .., hw⟩

/-- Rows with a chain agree with the element that has it about the witnesses of the level. -/
def Agrees (p : Plan) (rows : List Row) (i : Nat) (es : List Element) : Prop :=
  ∀ level, p.levels[i]? = some level → ∀ e ∈ es, ∀ r ∈ rows, p.chain? r i = some e.chain →
    e.witnesses = p.witnessNumbers r level

theorem agrees_nil (p : Plan) (i : Nat) : p.Agrees [] i [] :=
  fun _ _ _ he => absurd he List.not_mem_nil

/-! ### The invariant -/

section

variable {p : Plan} {rows : List Row} {r : Row} {i : Nat} {level : Level} {es es' : List Element}

/-- An element has the chain of a row. -/
theorem Tracks.exists_row (h : p.Tracks rows i es) {e : Element} (he : e ∈ es) :
    ∃ r ∈ rows, p.chain? r i = some e.chain := by
  obtain ⟨r, hfirst, -⟩ := h.first e he
  obtain ⟨hchain, before, after, rfl, -⟩ := firstRow?_eq_some hfirst
  exact ⟨r, by simp, hchain⟩

/-- A row's chain is that of an element. -/
theorem Tracks.exists_element (hp : p.WellFormed) (h : p.Tracks rows i es) (hr : r ∈ rows)
    {k : Chain} (hk : p.chain? r i = some k) : ∃ e ∈ es, e.chain = k := by
  obtain ⟨parent, id, rfl⟩ : ∃ parent id, k = parent ++ [id] := by
    cases (chain?_eq_some_iff hp).mp hk with
    | root => exact ⟨[], _, rfl⟩
    | child => exact ⟨_, _, rfl⟩
  exact h.mem_idsBelow.mp (mem_idsBelow_iff.mpr ⟨r, hr, hk⟩)

/-- **What a row does keeps the agreement.** -/
theorem Agrees.enters (hp : p.WellFormed) (htracks : p.Tracks rows i es)
    (h : p.Agrees rows i es) (hlevel : p.levels[i]? = some level)
    (henters : p.Enters r i level es es') : p.Agrees (rows ++ [r]) i es' := by
  intro level' hlevel' e he r' hr' hchain'
  obtain rfl := Option.some.inj (hlevel.symm.trans hlevel')
  have hr' : r' ∈ rows ∨ r' = r := by simpa using hr'
  -- Only a row with a chain can disagree, with the element of its chain.
  cases henters with
  | absent hnone =>
    obtain hr' | rfl := hr'
    · exact h level hlevel e he r' hr' hchain'
    · cases hnone.symm.trans hchain'
  | @known a ha hchain hcheck =>
    obtain hr' | rfl := hr'
    · exact h level hlevel e he r' hr' hchain'
    · -- The element was compared with the row, and has the witnesses of an earlier row.
      obtain ⟨r₀, hr₀, hchain₀⟩ := htracks.exists_row ha
      have heq : e.chain = a.chain := Option.some.inj (hchain'.symm.trans hchain)
      rw [h level hlevel e he r₀ hr₀ (heq ▸ hchain₀)]
      rw [h level hlevel a ha r₀ hr₀ hchain₀, Graph.checkWitnesses] at hcheck
      refine disagreement?_eq_none p r₀ r' level.witnesses ?_
      rw [witnessNumbers, witnessNumbers] at hcheck
      split at hcheck
      · cases hcheck
      · assumption
  | @made parent id cells hchain hnew hcells hfree =>
    -- An element that is made has the witnesses of the row that makes it, and no earlier row has
    -- its chain.
    obtain hold | rfl := (List.mem_append.mp he).imp_right List.mem_singleton.mp
    · obtain hr' | rfl := hr'
      · exact h level hlevel e hold r' hr' hchain'
      · exact absurd (Option.some.inj (hchain'.symm.trans hchain)) (hnew e hold)
    · obtain hr' | rfl := hr'
      · obtain ⟨a, ha, hachain⟩ := htracks.exists_element hp hr' hchain'
        exact absurd hachain (hnew a ha)
      · rfl

/-! ### Conflicts and refusals -/

/-- The chain at a level below another is the chain there with one more row number. -/
theorem Carries.exists_of_parent {k : Chain} (h : p.Carries r i k) {j : Nat}
    (hlevel : p.levels[i]? = some level) (hparent : level.parent? = some j) :
    ∃ parent id, k = parent ++ [id] ∧ p.Carries r j parent ∧
      p.numberAt? r level.rowId = some id := by
  cases h with
  | root hlevel' hroot =>
    obtain rfl := Option.some.inj (hlevel.symm.trans hlevel')
    exact absurd (hparent.symm.trans hroot) nofun
  | child hlevel' hparent' hk hid =>
    obtain rfl := Option.some.inj (hlevel.symm.trans hlevel')
    obtain rfl := Option.some.inj (hparent.symm.trans hparent')
    exact ⟨_, _, rfl, hk, hid⟩

/-- Rows whose elements agree with them are not in conflict. -/
theorem not_conflict_of_agrees (hp : p.WellFormed) {levelElements : Nat → List Element}
    (htracks : ∀ i < p.levels.length, p.Tracks rows i (levelElements i))
    (hagrees : ∀ i < p.levels.length, p.Agrees rows i (levelElements i)) {r' : Row}
    (hr : r ∈ rows) (hr' : r' ∈ rows) : ¬ p.Conflict r r' := by
  intro h
  cases h with
  | @crowded i j level k id id' hlevel hsingle hparent hk hk' hid hid' hne =>
    have hi := (List.getElem?_eq_some_iff.mp hlevel).1
    -- Both row numbers extend the chain, below which there is place for one.
    have hmem := mem_idsBelow_iff.mpr
      ⟨r, hr, (chain?_eq_some_iff hp).mpr (.child hlevel hparent hk hid)⟩
    have hmem' := mem_idsBelow_iff.mpr
      ⟨r', hr', (chain?_eq_some_iff hp).mpr (.child hlevel hparent hk' hid')⟩
    have hone := (htracks i hi).single level hlevel (Option.isSome_of_eq_some hparent) hsingle k
    obtain ⟨m, hm, rfl⟩ := List.mem_iff_getElem.mp hmem
    obtain ⟨n, hn, rfl⟩ := List.mem_iff_getElem.mp hmem'
    obtain rfl : m = n := by omega
    exact hne rfl
  | @ambiguous i level k w hlevel hk hk' hw hne =>
    have hi := (List.getElem?_eq_some_iff.mp hlevel).1
    have hchain := (chain?_eq_some_iff hp).mpr hk
    have hchain' := (chain?_eq_some_iff hp).mpr hk'
    obtain ⟨e, he, rfl⟩ := (htracks i hi).exists_element hp hr hchain
    have heq : p.witnessNumbers r level = p.witnessNumbers r' level :=
      (hagrees i hi level hlevel e he r hr hchain).symm.trans
        (hagrees i hi level hlevel e he r' hr' hchain')
    exact hne (List.map_inj_left.mp heq w hw)

/-- A row that is refused is in conflict with one that has been read. -/
theorem conflict_of_refuses (hp : p.WellFormed) (htracks : p.Tracks rows i es)
    (hagrees : p.Agrees rows i es) (hlevel : p.levels[i]? = some level) {e : Error}
    (h : p.Refuses r i level es e) :
    (∃ r' ∈ rows, p.Conflict r' r) ∧ ∃ table path detail, e = .crowded table path detail := by
  cases h with
  | @ambiguous a w ha hchain hdisagree =>
    -- The element that stands in the way was made by an earlier row, and that row is in conflict.
    obtain ⟨r₀, hr₀, hchain₀⟩ := htracks.exists_row ha
    rw [hagrees level hlevel a ha r₀ hr₀ hchain₀] at hdisagree
    obtain ⟨hw, hne⟩ := disagreement?_eq_some hdisagree
    exact ⟨⟨r₀, hr₀, .ambiguous hlevel ((chain?_eq_some_iff hp).mp hchain₀)
      ((chain?_eq_some_iff hp).mp hchain) hw hne⟩, _, _, _, rfl⟩
  | @crowded parent id a hchain hnew hparent hsingle ha hbelow =>
    obtain ⟨r₀, hr₀, hchain₀⟩ := htracks.exists_row ha
    obtain ⟨j, hj⟩ := Option.isSome_iff_exists.mp hparent
    obtain ⟨k, id', hk, hcarries, hid⟩ :=
      ((chain?_eq_some_iff hp).mp hchain).exists_of_parent hlevel hj
    obtain ⟨k₀, id₀, hk₀, hcarries₀, hid₀⟩ :=
      ((chain?_eq_some_iff hp).mp hchain₀).exists_of_parent hlevel hj
    obtain ⟨rfl, hids⟩ := List.append_inj' hk rfl
    rw [hk₀, List.dropLast_concat] at hbelow
    subst hbelow
    refine ⟨⟨r₀, hr₀, .crowded hlevel hsingle hj hcarries₀ hcarries hid₀ hid ?_⟩, _, _, _, rfl⟩
    rintro rfl
    exact hnew a ha (hk₀.trans hk.symm)

end

end Plan

namespace Graph

open Build

variable {p : Plan} {header : List String} {rows : List Row}

/-- After the rows, the elements of every level are those of the grouping, and agree with the
rows. -/
theorem agrees_of_forM_push (hp : p.WellFormed) (hheader : ∀ r ∈ rows, r.columns = header)
    {u : Unit} {g : Graph} (h : Yields (rows.forM (push p)) {} u g) :
    (∀ ps, g.positions? = some ps → p.positions header = .ok ps) ∧
      ∃ es, g.Represents p es ∧ ∀ i < p.levels.length,
        p.Tracks rows i (elementsAt es i) ∧ p.Agrees rows i (elementsAt es i) :=
  forM_push_keeps (I := fun read i es => p.Tracks read i es ∧ p.Agrees read i es) hp
    (fun _ _ _ _ _ _ hlevel hI henters =>
      ⟨hI.1.enters hlevel henters, hI.2.enters hp hI.1 hlevel henters⟩)
    hheader (fun _ hps => absurd hps (by simp)) (represents_nil p)
    (fun i _ => ⟨Plan.tracks_nil p i, Plan.agrees_nil p i⟩) h

/-- Every row finds the element with its chain. The element has the cells of a row with this
chain that agrees with the row about the witnesses. -/
theorem exists_node_of_forM_push (hp : p.WellFormed) (hheader : ∀ r ∈ rows, r.columns = header)
    {u : Unit} {g : Graph} (h : Yields (rows.forM (push p)) {} u g) {r : Row} (hr : r ∈ rows)
    {i : Nat} {level : Level} {k : Chain} (hlevel : p.levels[i]? = some level)
    (hk : p.Carries r i k) :
    ∃ place n, g.index.lookup (i, k) = some place ∧ g.nodes[place]? = some n ∧
      ∃ r₀ ∈ rows, p.Carries r₀ i k ∧ p.cells? r₀ i = some n.cells ∧
        p.witnessNumbers r₀ level = p.witnessNumbers r level := by
  obtain ⟨-, es, hg, hlevels⟩ := agrees_of_forM_push hp hheader h
  obtain ⟨htracks, hagrees⟩ := hlevels i (List.getElem?_eq_some_iff.mp hlevel).1
  have hchain := (Plan.chain?_eq_some_iff hp).mpr hk
  obtain ⟨e, he, rfl⟩ := htracks.exists_element hp hr hchain
  -- The cells are those of the first row with the chain.
  obtain ⟨r₀, hfirst, hcells⟩ := htracks.first e he
  obtain ⟨hchain₀, before, after, rfl, -⟩ := Plan.firstRow?_eq_some hfirst
  have hr₀ : r₀ ∈ before ++ r₀ :: after := by simp
  obtain ⟨hmem, helevel⟩ := mem_elementsAt.mp he
  obtain ⟨place, hplace⟩ := List.mem_iff_getElem?.mp hmem
  refine ⟨place, p.nodeOf es e, (hg.index i e.chain place).mpr ⟨e, hplace, helevel, rfl⟩, ?_,
    r₀, hr₀, (Plan.chain?_eq_some_iff hp).mp hchain₀, hcells, ?_⟩
  · rw [hg.nodes, List.getElem?_map, hplace, Option.map_some]
  · rw [← hagrees level hlevel e he r₀ hr₀ hchain₀, hagrees level hlevel e he r hr hchain]

/-- Rows that are read are not in conflict. -/
theorem not_conflict_of_forM_push (hp : p.WellFormed) (hheader : ∀ r ∈ rows, r.columns = header)
    {u : Unit} {g : Graph} (h : Yields (rows.forM (push p)) {} u g) :
    ∀ r ∈ rows, ∀ r' ∈ rows, ¬ p.Conflict r r' := by
  obtain ⟨-, es, -, hlevels⟩ := agrees_of_forM_push hp hheader h
  exact fun r hr r' hr' => Plan.not_conflict_of_agrees hp (fun i hi => (hlevels i hi).1)
    (fun i hi => (hlevels i hi).2) hr hr'

/-- Of rows that can be read and fail, two are in conflict. -/
theorem conflict_of_forM_push_fails (hp : p.WellFormed) (hheader : ∀ r ∈ rows, r.columns = header)
    (hreadable : ∀ r ∈ rows, r.IsReadable p) {e : Error} (h : Fails (rows.forM (push p)) {} e) :
    (∃ r ∈ rows, ∃ r' ∈ rows, p.Conflict r r') ∧
      ∃ table path detail, e = .crowded table path detail := by
  obtain ⟨before, r, after, g, rfl, hbefore, hr⟩ := fails_forM_iff.mp h
  have hmem : r ∈ before ++ r :: after := by simp
  obtain ⟨hknown, es, hg, hlevels⟩ :=
    agrees_of_forM_push hp (fun a ha => hheader a (by simp [ha])) hbefore
  obtain ⟨i, level, hlevel, hrefuses⟩ :=
    push_fails hp (hreadable r hmem) hg (hheader r hmem ▸ hknown) hr
  obtain ⟨htracks, hagrees⟩ := hlevels i (List.getElem?_eq_some_iff.mp hlevel).1
  obtain ⟨⟨r', hr', hconflict⟩, herror⟩ :=
    Plan.conflict_of_refuses hp htracks hagrees hlevel hrefuses
  exact ⟨⟨r', by simp [hr'], r, hmem, hconflict⟩, herror⟩

/-- **Rows fail exactly if two of them are in conflict**, and then with a violation of cardinality.
So what counts is which rows there are: in any order they fail, or in any order they are read. -/
theorem forM_push_fails_iff_conflict (hp : p.WellFormed)
    (hheader : ∀ r ∈ rows, r.columns = header) (hreadable : ∀ r ∈ rows, r.IsReadable p) :
    ((∃ e, Fails (rows.forM (push p)) {} e) ↔ ∃ r ∈ rows, ∃ r' ∈ rows, p.Conflict r r') ∧
      (∀ e, Fails (rows.forM (push p)) {} e →
        ∃ table path detail, e = .crowded table path detail) ∧
      ((∀ rows', List.Perm rows' rows → ∃ g, Yields (rows'.forM (push p)) {} () g) ∨
        ∀ rows', List.Perm rows' rows → ∃ e, Fails (rows'.forM (push p)) {} e) := by
  -- Being in conflict does not depend on the order of the rows.
  have hiff : ∀ rows', List.Perm rows' rows →
      ((∃ e, Fails (rows'.forM (push p)) {} e) ↔ ∃ r ∈ rows, ∃ r' ∈ rows, p.Conflict r r') := by
    intro rows' hperm
    have hheader' : ∀ r ∈ rows', r.columns = header := fun r hr =>
      hheader r (hperm.mem_iff.mp hr)
    have hreadable' : ∀ r ∈ rows', r.IsReadable p := fun r hr =>
      hreadable r (hperm.mem_iff.mp hr)
    constructor
    · rintro ⟨e, he⟩
      obtain ⟨⟨r, hr, r', hr', hconflict⟩, -⟩ :=
        conflict_of_forM_push_fails hp hheader' hreadable' he
      exact ⟨r, hperm.mem_iff.mp hr, r', hperm.mem_iff.mp hr', hconflict⟩
    · rintro ⟨r, hr, r', hr', hconflict⟩
      refine (yields_or_fails _ _).resolve_left fun ⟨_, g, hg⟩ => ?_
      exact not_conflict_of_forM_push hp hheader' hg r (hperm.mem_iff.mpr hr) r'
        (hperm.mem_iff.mpr hr') hconflict
  refine ⟨hiff rows (.refl rows), fun e he =>
    (conflict_of_forM_push_fails hp hheader hreadable he).2, ?_⟩
  by_cases hconflict : ∃ r ∈ rows, ∃ r' ∈ rows, p.Conflict r r'
  · exact Or.inr fun rows' hperm => (hiff rows' hperm).mpr hconflict
  · refine Or.inl fun rows' hperm => ?_
    obtain ⟨_, g, hg⟩ := (yields_or_fails (rows'.forM (push p)) {}).resolve_right
      fun hfails => hconflict ((hiff rows' hperm).mp hfails)
    exact ⟨g, hg⟩

/-- People with a place for one tutor, whose names are guarded by the row numbers of their homes. -/
def tutorPlan : Plan :=
  (((((Plan.root "t0.##rowid" "people").addRowId "t1.##rowid").2.addRowId "t2.##rowid").2.addLevel
      ⟨some 0, 1, true, [.field "tutor"], "tutor", "tutors", []⟩).addColumn
    ⟨"t0.name", 0, [.field "name"], .text⟩).addWitness 0 ⟨2, "homes"⟩

/-- The columns of `tutorRow`. -/
def tutorHeader : List String :=
  ["t0.name", "t0.##rowid", "t1.##rowid", "t2.##rowid"]

/-- A row for a person, a tutor and a home. -/
def tutorRow (person : Int64) (name : String) (tutor? home? : Option Int64) : Row where
  columns := tutorHeader
  cells := [.text name, .integer person, (tutor?.map Value.integer).getD .null,
    (home?.map Value.integer).getD .null]

/-- The first and the last row want different tutors for one person, whatever stands between. -/
def tutorRows : List Row :=
  [tutorRow 1 "Ann" (some 5) none, tutorRow 2 "Bob" (some 6) none, tutorRow 1 "Ann" (some 6) none]

theorem built_tutorPlan : tutorPlan.Built :=
  .addWitness (.addColumn (.addLevel _ _ _ _ (.addRowId _ (.addRowId _ (.root _ _))) (by decide)
    (by decide)) (by decide)) (by decide) (by decide)

theorem isReadable_tutorRow (person : Int64) (name : String) (tutor? home? : Option Int64) :
    (tutorRow person name tutor? home?).IsReadable tutorPlan where
  rowId_mem := by
    show ∀ name ∈ tutorPlan.rowIds, name ∈ tutorHeader
    decide
  document c hc := by
    obtain rfl := List.mem_singleton.mp hc
    rfl
  root := ⟨person, .root rfl rfl rfl⟩

theorem forM_push_fails_iff_conflict_tutors :
    ∃ table path detail,
      Fails (tutorRows.forM (push tutorPlan)) {} (.crowded table path detail) := by
  have h := @forM_push_fails_iff_conflict tutorPlan tutorHeader tutorRows built_tutorPlan.wellFormed
    (by simp [tutorRows, tutorRow]) (by simp [tutorRows, isReadable_tutorRow])
  have hconflict : tutorPlan.Conflict (tutorRow 1 "Ann" (some 5) none)
      (tutorRow 1 "Ann" (some 6) none) :=
    .crowded (i := 1) (j := 0) (k := [1]) rfl rfl rfl (.root rfl rfl rfl) (.root rfl rfl rfl)
      rfl rfl (by decide)
  obtain ⟨e, he⟩ := h.1.mpr ⟨_, by simp [tutorRows], _, by simp [tutorRows], hconflict⟩
  obtain ⟨table, path, detail, rfl⟩ := h.2.1 e he
  exact ⟨table, path, detail, he⟩

end Graph

end NestedQuery
