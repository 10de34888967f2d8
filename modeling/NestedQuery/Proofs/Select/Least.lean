import Mathlib.Order.Bounds.Basic
import NestedQuery.Proofs.Select.Sources

/-!
# Pruning

The tables that an assembled statement joins are the least set that has every table which is
demanded on its own account and is closed under what the join conditions of its members read
(`Assembler.isLeast_sourceNames`). The passes that find this set come to an end for every
statement, also if join conditions read one another's tables in a circle.
-/

namespace NestedQuery

open Fragment

/-- A leaf of the term reads the table, or gives a value that belongs to its rows. -/
def Term.Involves (t : Term) (id : TableId) : Prop :=
  ∃ leaf ∈ t.leaves, id ∈ leaf.tables

/-- A leaf of the term reads a column of the table. -/
def Term.Reads (t : Term) (id : TableId) : Prop :=
  ∃ c ∈ Term.columns t, c.table = id

theorem Term.involves_iff {t : Term} {id : TableId} : t.Involves id ↔ id ∈ Term.neededTables t :=
  List.mem_flatMap.symm

/-- If each leaf belongs to the rows of the table it reads, reading is all there is. -/
theorem Term.involves_iff_reads {t : Term} (h : ∀ leaf ∈ t.leaves, leaf.isFolded = false)
    {id : TableId} : t.Involves id ↔ t.Reads id := by
  constructor
  · rintro ⟨leaf, hleaf, hid⟩
    cases leaf with
    | param p => exact absurd hid List.not_mem_nil
    | column c r function type =>
      have htable : c.table = r.table := by simpa [Cell.isFolded] using h _ hleaf
      have hid : id = c.table := by simpa [Cell.tables, ← htable] using hid
      exact ⟨c, List.mem_filterMap.mpr ⟨_, hleaf, rfl⟩, hid.symm⟩
  · rintro ⟨c, hc, rfl⟩
    obtain ⟨leaf, hleaf, hcolumn⟩ := List.mem_filterMap.mp hc
    cases leaf with
    | param p => cases hcolumn
    | column c' r function type =>
      obtain rfl := Option.some.inj hcolumn
      exact ⟨_, hleaf, List.mem_cons_self ..⟩

namespace Statement

/-- With a table the set has all tables of the statement that `reads` finds in the condition by
which the table is joined. -/
def ClosedUnder (s : Statement) (reads : Term → TableId → Prop) (S : Set TableId) : Prop :=
  ∀ u ∈ S, ∀ j condition, s.join? u = some j → j.on? = some condition →
    ∀ t ∈ s.tableIds, reads condition t → t ∈ S

theorem mem_joinNeeds_iff {s : Statement} {t u : TableId} :
    t ∈ s.joinNeeds u ↔
      ∃ j condition, s.join? u = some j ∧ j.on? = some condition ∧ condition.Involves t := by
  unfold joinNeeds
  constructor
  · intro h
    cases hj : s.join? u with
    | none => simp [hj] at h
    | some j =>
      cases hon : j.on? with
      | none => simp [hj, hon] at h
      | some condition =>
        simp only [hj, hon, Option.bind_some, Option.map_some, Option.getD_some] at h
        exact ⟨j, condition, rfl, hon, Term.involves_iff.mpr h⟩
  · rintro ⟨j, condition, hj, hon, h⟩
    simp only [hj, hon, Option.bind_some, Option.map_some, Option.getD_some]
    exact Term.involves_iff.mp h

theorem join?_mem {s : Statement} {u : TableId} {j : Join} (h : s.join? u = some j) :
    j ∈ s.joins := by
  cases u with
  | zero => cases h
  | succ u => exact List.mem_of_getElem? h

/-- A join condition without folded leaves involves just what it reads. -/
theorem closedUnder_reads_iff {s : Statement}
    (h : ∀ j ∈ s.joins, ∀ condition, j.on? = some condition →
      ∀ leaf ∈ condition.leaves, leaf.isFolded = false) {S : Set TableId} :
    s.ClosedUnder Term.Reads S ↔ s.ClosedUnder Term.Involves S := by
  have hiff : ∀ {u j condition}, s.join? u = some j → j.on? = some condition →
      ∀ t, condition.Involves t ↔ condition.Reads t := fun hj hon _ =>
    Term.involves_iff_reads (h _ (join?_mem hj) _ hon)
  constructor
  · exact fun hS u hu j condition hj hon t ht hinvolves =>
      hS u hu j condition hj hon t ht ((hiff hj hon t).mp hinvolves)
  · exact fun hS u hu j condition hj hon t ht hreads =>
      hS u hu j condition hj hon t ht ((hiff hj hon t).mpr hreads)

end Statement

namespace Assembler

/-- The tables that a statement cannot do without on their own account. -/
inductive Demands (a : Assembler) (outputs : List (Output Cell)) (tables : List MappedTable) :
    TableId → Prop
  /-- The primary table. -/
  | primary : Demands a outputs tables 0
  /-- The tables of inner joins. -/
  | inner {t : TableId} {j : Join} :
      a.statement.join? t = some j → j.kind = .inner → Demands a outputs tables t
  /-- The tables of the levels. -/
  | level {p : Place} :
      p ∈ (Draft.ofMapping a.statement tables outputs).places → Demands a outputs tables p.table
  /-- The witnesses. -/
  | witness {t : TableId} :
      t ∈ (Draft.ofMapping a.statement tables outputs).witnesses → Demands a outputs tables t
  /-- What an output involves. -/
  | output {o : Output Cell} {t : TableId} :
      o ∈ outputs → Term.Involves o.value t → Demands a outputs tables t
  /-- What the filter involves. -/
  | filter {condition : Term} {t : TableId} :
      a.statement.filter? = some condition → condition.Involves t → Demands a outputs tables t
  /-- What an ordering key involves. -/
  | order {key : Term × Direction} {t : TableId} :
      key ∈ a.statement.order → key.1.Involves t → Demands a outputs tables t

variable {a : Assembler} {outputs : List (Output Cell)} {tables : List MappedTable} {t : TableId}

theorem isFixed_iff {s : Statement} :
    s.isFixed t ↔ s.join? t = none ∨ ∃ j, s.join? t = some j ∧ j.kind = .inner := by
  unfold Statement.isFixed
  cases h : s.join? t with
  | none => simp
  | some j => simp

theorem eq_zero_of_join?_eq_none {s : Statement} (ht : t ∈ s.tableIds) (h : s.join? t = none) :
    t = 0 := by
  cases t with
  | zero => rfl
  | succ t =>
    have hlt : t < s.joins.length := by
      simpa [Statement.tableIds, Statement.sources] using ht
    exact absurd h (by simp [Statement.join?, hlt])

/-- What is needed from outside, and by the clauses, is what is demanded. -/
theorem demands_iff (ht : t ∈ a.statement.tableIds) :
    a.Demands outputs tables t ↔
      a.statement.isFixed t ∨
        t ∈ (Draft.ofMapping a.statement tables outputs).neededTables ∨
        t ∈ a.statement.clauseNeeds := by
  obtain ⟨hcollects, hplaced⟩ := Draft.ofMapping_collects a.statement tables outputs
  constructor
  · intro h
    cases h with
    | primary => exact Or.inl rfl
    | inner hj hkind => exact Or.inl (isFixed_iff.mpr (Or.inr ⟨_, hj, hkind⟩))
    | level hp =>
      exact Or.inr (Or.inl (List.mem_append_left _ (List.mem_append_left _
        (List.mem_map_of_mem hp))))
    | witness hw => exact Or.inr (Or.inl (List.mem_append_left _ (List.mem_append_right _ hw)))
    | output ho hinvolves =>
      exact Or.inr (Or.inl ((hcollects.mem_neededTables_iff hplaced).mpr
        (Or.inr (Or.inr ⟨_, ho, Term.involves_iff.mp hinvolves⟩))))
    | filter hfilter hinvolves =>
      refine Or.inr (Or.inr (List.mem_append_left _ ?_))
      rw [hfilter]
      exact Term.involves_iff.mp hinvolves
    | order hkey hinvolves =>
      exact Or.inr (Or.inr (List.mem_append_right _
        (List.mem_flatMap.mpr ⟨_, hkey, Term.involves_iff.mp hinvolves⟩)))
  · rintro (hfixed | hneeded | hclause)
    · -- Fixed are the primary table and the tables of inner joins.
      rcases isFixed_iff.mp hfixed with hnone | ⟨j, hj, hkind⟩
      · exact eq_zero_of_join?_eq_none ht hnone ▸ .primary
      · exact .inner hj hkind
    · rcases List.mem_append.mp hneeded with hneeded | houtput
      · rcases List.mem_append.mp hneeded with hlevel | hwitness
        · obtain ⟨p, hp, rfl⟩ := List.mem_map.mp hlevel
          exact .level hp
        · exact .witness hwitness
      · obtain ⟨x, hx, hinvolves⟩ := List.mem_flatMap.mp houtput
        obtain ⟨o, ho, hvalue⟩ := Draft.exists_of_mem_ofMapping hx
        exact .output ho (hvalue ▸ Term.involves_iff.mpr hinvolves)
    · rcases List.mem_append.mp hclause with hfilter | horder
      · cases hf : a.statement.filter? with
        | none => simp [hf] at hfilter
        | some condition =>
          rw [hf] at hfilter
          exact .filter hf (Term.involves_iff.mpr hfilter)
      · obtain ⟨key, hkey, hinvolves⟩ := List.mem_flatMap.mp horder
        exact .order hkey (Term.involves_iff.mpr hinvolves)

/-- The sets of tables that a statement could be left with. -/
def Suffices (a : Assembler) (outputs : List (Output Cell)) (tables : List MappedTable)
    (reads : Term → TableId → Prop) : Set (Set TableId) :=
  {S | (∀ t ∈ a.statement.tableIds, a.Demands outputs tables t → t ∈ S) ∧
    a.statement.ClosedUnder reads S}

/-- The kept tables are the least set that suffices. -/
theorem isLeast_kept (a : Assembler) (outputs : List (Output Cell)) (tables : List MappedTable) :
    IsLeast (a.Suffices outputs tables Term.Involves)
      {t | t ∈ a.statement.kept
        (Draft.ofMapping a.statement tables outputs).neededTables} := by
  refine ⟨⟨fun t ht hdemands => ?_, fun u hu j condition hj hon t ht hinvolves => ?_⟩, ?_⟩
  · rcases (demands_iff ht).mp hdemands with hfixed | hneeded | hclause
    · exact Statement.mem_kept_iff.mpr (.fixed ht hfixed)
    · exact Statement.mem_kept_iff.mpr (.needed ht hneeded)
    · exact Statement.mem_kept_iff.mpr (.clause ht hclause)
  · exact Statement.mem_kept_iff.mpr (.condition (Statement.mem_kept_iff.mp hu) ht
      (Statement.mem_joinNeeds_iff.mpr ⟨j, condition, hj, hon, hinvolves⟩))
  · -- Whatever is needed is in every set that suffices, by induction on why it is needed.
    rintro S ⟨hdemanded, hclosed⟩ t ht
    have hneeded : a.statement.IsNeeded
        (Draft.ofMapping a.statement tables outputs).neededTables t := Statement.mem_kept_iff.mp ht
    clear ht
    induction hneeded with
    | fixed ht hfixed => exact hdemanded _ ht ((demands_iff ht).mpr (Or.inl hfixed))
    | needed ht hneeded => exact hdemanded _ ht ((demands_iff ht).mpr (Or.inr (Or.inl hneeded)))
    | clause ht hclause => exact hdemanded _ ht ((demands_iff ht).mpr (Or.inr (Or.inr hclause)))
    | condition _ ht hneeds ih =>
      obtain ⟨j, condition, hj, hon, hinvolves⟩ := Statement.mem_joinNeeds_iff.mp hneeds
      exact hclosed _ ih j condition hj hon _ ht hinvolves

/-- **Pruning keeps exactly the least closed set.** For every statement, outputs and mapped tables
the passes over the tables end: each but the last marks a further table, and the last one marks
none. What is marked then are the tables that an accepted statement reads from, in order and each
once, and they are the least set that has the demanded tables and is closed under what the join
conditions of its members read. Here a term reads the tables of its columns and those to whose rows
its leaves belong; if no leaf of a condition is folded into other rows, these are the same. -/
theorem isLeast_sourceNames (a : Assembler) (outputs : List (Output Cell))
    (tables : List MappedTable) :
    ∃ start kept : List TableId,
      (∀ t, t ∈ start ↔ t ∈ a.statement.tableIds ∧ a.Demands outputs tables t) ∧
      kept = a.statement.closeNeeds start ∧
      (∃ k ≤ a.statement.tableIds.length, kept = a.statement.markAll^[k] start ∧
        (∀ i < k, (a.statement.markAll^[i] start).length <
          (a.statement.markAll^[i + 1] start).length) ∧
        a.statement.markAll kept = kept) ∧
      IsLeast (a.Suffices outputs tables Term.Involves) {t | t ∈ kept} ∧
      ((∀ j ∈ a.statement.joins, ∀ condition, j.on? = some condition →
          ∀ leaf ∈ condition.leaves, leaf.isFolded = false) →
        IsLeast (a.Suffices outputs tables Term.Reads) {t | t ∈ kept}) ∧
      ∀ r n n', (a.assemble outputs tables).run n = .ok (r, n') →
        sourceNames r.sql = kept.map tableAlias ∧ kept.Sublist a.statement.tableIds := by
  have hleast := a.isLeast_kept outputs tables
  have hassemble : ∀ {r n n'}, (a.assemble outputs tables).run n = .ok (r, n') →
      sourceNames r.sql = (a.statement.kept
        (Draft.ofMapping a.statement tables outputs).neededTables).map tableAlias :=
    a.sourceNames_of_assemble
  generalize hneeded : (Draft.ofMapping a.statement tables outputs).neededTables = needed at *
  have hseeds := a.statement.isMarking_seeds needed
  refine ⟨a.statement.seeds needed, a.statement.kept needed, fun t => ?_, rfl, ?_, hleast,
    fun hfolded => ?_, fun r n n' h => ⟨hassemble h, hseeds.closeNeeds.1.sublist_tableIds⟩⟩
  · rw [Statement.mem_seeds_iff, ← hneeded]
    exact and_congr_right fun ht => (demands_iff ht).symm
  · obtain ⟨k, hk, heq, hgrows, hstable⟩ := Statement.exists_closeNeeds_eq_iterate hseeds
    exact ⟨k, by omega, heq, hgrows, hstable⟩
  · -- Without folded leaves, to involve a table is to read it.
    have hsame : a.Suffices outputs tables Term.Reads = a.Suffices outputs tables Term.Involves :=
      Set.ext fun S => and_congr_right fun _ => Statement.closedUnder_reads_iff hfolded
    rw [hsame]
    exact hleast

/-- A column of a table, as a value of the table's own rows. -/
def ownColumn (id : TableId) (name : String) : Term :=
  .leaf (.column ⟨id, tableAlias id, name⟩ (rowIdRef id) none .integer)

/-- People, mentors and pairs, of which the last two read each other in their join conditions, and
rooms, which read mentors. -/
def circleOfJoins : Assembler where
  statement := {
    primary := ⟨"person", ⟨"person", []⟩⟩
    joins := [
      ⟨⟨"mentor", ⟨"mentor", []⟩⟩, .one, .left,
        some (.binary .eq (ownColumn 1 "pair_id") (ownColumn 2 "id"))⟩,
      ⟨⟨"pair", ⟨"pair", []⟩⟩, .one, .left,
        some (.binary .eq (ownColumn 2 "mentor_id") (ownColumn 1 "id"))⟩,
      ⟨⟨"room", ⟨"room", []⟩⟩, .one, .left,
        some (.binary .eq (ownColumn 3 "mentor_id") (ownColumn 1 "id"))⟩] }
  pool := {}
  engine := .ansi

/-- The id of the mentor. -/
def mentorId : Output Cell :=
  ⟨ownColumn 1 "id", [.field "mentor"], .integer⟩

/-- The mentor is read, so the pair is joined too, which the circle leads back from. The rooms are
left out. -/
theorem isLeast_sourceNames_circle :
    ∃ r n', (circleOfJoins.assemble [mentorId] []).run 0 = .ok (r, n') ∧
      sourceNames r.sql = ["t0", "t1", "t2"] ∧
      IsLeast (circleOfJoins.Suffices [mentorId] [] Term.Reads) {t | t ∈ [0, 1, 2]} := by
  have hrun : ((circleOfJoins.assemble [mentorId] []).run 0).any
      (fun x => sourceNames x.1.sql == [0, 1, 2].map tableAlias) = true := by decide +kernel
  obtain ⟨⟨r, n'⟩, hr, hnames⟩ := Result.any_eq_true_iff.mp hrun
  obtain ⟨start, kept, -, -, -, -, hreads, hsources⟩ :=
    isLeast_sourceNames circleOfJoins [mentorId] []
  have hnames : sourceNames r.sql = [0, 1, 2].map tableAlias := beq_iff_eq.mp hnames
  have hkept : kept = [0, 1, 2] :=
    List.map_injective_iff.mpr (fun _ _ => tableAlias_injective)
      ((hsources r 0 n' hr).1.symm.trans hnames)
  exact ⟨r, n', hr, hnames, hkept ▸ hreads (by decide +kernel)⟩

end Assembler

end NestedQuery
