import NestedQuery.Proofs.Select.Sources
import NestedQuery.Proofs.Sql.Spacing

/-!
# The text of a statement and its lexemes

The statements of the provided engines are written so that their text can be read back: it is
split into the lexemes of the chunks, whatever the tables, columns and outputs are called and
whatever values are bound (`lex_render_compile`). In particular no comment is opened, and the
content of a name never leaves its quotes.

Every part of a statement keeps `Fragment.IsSpaced`. For terms this is an instance of
`Fragment.Closed`; the other parts are put together of terms, names and keywords.
-/

namespace NestedQuery

namespace Fragment

/-! ### Putting spaced fragments together -/

/-- A chunk that is no sign may stand before any chunk that is no point. -/
theorem fits_of_ne {c next : Chunk} (hc : c ≠ .token .minus) (hnext : next ≠ .token .dot) :
    c.fits next := by
  unfold Chunk.fits
  split
  · exact absurd rfl hc
  · rfl
  · exact absurd rfl hnext
  · rfl

theorem ChunksFit.append {f g : List Chunk} (hf : ChunksFit f) (hg : ChunksFit g)
    (hlast : f.getLast? ≠ some (.token .minus)) (hfirst : g.head? ≠ some (.token .dot)) :
    ChunksFit (f ++ g) := by
  induction f with
  | nil => exact hg
  | cons c f ih =>
    obtain ⟨hc, hnext, hrest⟩ := hf
    refine ⟨hc, ?_, ?_⟩
    · intro next hmem
      cases f with
      | nil =>
        -- The last chunk of the first fragment meets the first of the second.
        refine fits_of_ne ?_ ?_
        · rintro rfl
          exact hlast rfl
        · rintro rfl
          exact hfirst hmem
      | cons c' f => exact hnext next hmem
    · refine ih hrest ?_
      cases f with
      | nil => nofun
      | cons c' f => rwa [List.getLast?_cons_cons] at hlast

theorem isSpaced_nil : IsSpaced [] :=
  ⟨trivial, nofun, nofun⟩

theorem IsSpaced.append {f g : Fragment} (hf : f.IsSpaced) (hg : g.IsSpaced) :
    IsSpaced (f ++ g) := by
  refine ⟨ChunksFit.append hf.fit hg.fit hf.last hg.first, ?_, ?_⟩
  · cases f with
    | nil => exact hg.first
    | cons c f => exact hf.first
  · rw [List.getLast?_append]
    cases hlast : g.getLast? with
    | none => exact hf.last
    | some c =>
      have hg := hg.last
      rwa [hlast] at hg

theorem isSpaced_singleton {c : Chunk} (hc : c.IsSound) (hdot : c ≠ .token .dot)
    (hminus : c ≠ .token .minus) : IsSpaced [c] :=
  ⟨⟨hc, by simp, trivial⟩, fun h => hdot (Option.some.inj h), fun h => hminus (Option.some.inj h)⟩

/-- Tokens other than points and signs may stand side by side. -/
theorem isSpaced_tokens (ts : List Token) (hts : ts.all fun t => t != .dot && t != .minus) :
    IsSpaced (ts.map Chunk.token) := by
  induction ts with
  | nil => exact isSpaced_nil
  | cons t ts ih =>
    rw [List.all_cons, Bool.and_eq_true, Bool.and_eq_true, bne_iff_ne, bne_iff_ne] at hts
    obtain ⟨⟨hdot, hminus⟩, hrest⟩ := hts
    have ht : IsSpaced [.token t] :=
      isSpaced_singleton trivial (fun h => hdot (Chunk.token.inj h))
        (fun h => hminus (Chunk.token.inj h))
    exact ht.append (ih hrest)

theorem isSpaced_ident (name : String) : IsSpaced [.ident name] :=
  isSpaced_singleton trivial (by simp) (by simp)

theorem isSpaced_qualified (table column : String) : IsSpaced (qualified table column) := by
  refine ⟨⟨trivial, ?_, trivial, ?_, trivial, by simp, trivial⟩, by simp [qualified],
    by simp [qualified]⟩
  · rintro next ⟨⟩
    rfl
  · rintro next ⟨⟩
    rfl

theorem IsSpaced.parens {f : Fragment} (hf : f.IsSpaced) : f.parens.IsSpaced :=
  ((isSpaced_tokens [.openParen] rfl).append hf).append
    (isSpaced_tokens [.closeParen] rfl)

theorem IsSpaced.named {f : Fragment} (hf : f.IsSpaced) (name : String) :
    (f.named name).IsSpaced :=
  hf.append ((isSpaced_tokens [.as_] rfl).append (isSpaced_ident name))

/-- **Spacing is kept** by all that terms are put together with. -/
theorem closed_isSpaced : Closed IsSpaced where
  nil := isSpaced_nil
  append := IsSpaced.append
  chunk {c} hc := by
    cases c with
    | token t =>
      refine isSpaced_singleton trivial ?_ ?_
      · rintro ⟨⟩
        exact absurd hc (by decide)
      · rintro ⟨⟩
        exact absurd hc (by decide)
    | raw text =>
      refine isSpaced_singleton ?_ (by simp) (by simp)
      exact List.mem_append_left _ (List.contains_iff_mem.mp hc)
    | number n => exact isSpaced_singleton trivial (by simp) (by simp)
    | param id => exact isSpaced_singleton trivial (by simp) (by simp)
    | _ => exact absurd hc nofun
  minus {f} hstarts hf := by
    -- An operand is not empty, and starts with nothing that a minus would run into.
    obtain ⟨c, f, rfl⟩ : ∃ c g, f = c :: g := by
      cases f with
      | nil => exact absurd hstarts nofun
      | cons c g => exact ⟨c, g, rfl⟩
    rw [startsOperand_cons] at hstarts
    refine ⟨⟨trivial, ?_, hf.fit⟩, by simp, by rw [List.getLast?_cons_cons]; exact hf.last⟩
    rintro next ⟨⟩
    exact hstarts
  parens := IsSpaced.parens
  function {name f} hname hf :=
    (isSpaced_singleton (c := .function name) hname (by simp) (by simp)).append hf.parens
  inList {f} id hf := isSpaced_singleton (c := .inList f id) hf.fit (by simp) (by simp)

end Fragment

open Fragment

/-! ### Engines -/

/-- One of the engines that are provided, with any way of numbering rows. -/
def Engine.IsProvided (e : Engine) : Prop :=
  (∃ rowIds, e = .ansi rowIds) ∨ (∃ rowIds, e = .sqlite rowIds) ∨ e = .postgres

namespace Engine

variable {e : Engine}

/-- The bare texts that provided engines differ in are known. -/
theorem IsProvided.raw (h : e.IsProvided) :
    e.skipAlone ∈ rawTexts ∧ ∀ type ∈ e.totalType?, type ∈ rawTexts := by
  rcases h with ⟨rowIds, rfl⟩ | ⟨rowIds, rfl⟩ | rfl
  · exact ⟨show "OFFSET" ∈ rawTexts by decide, nofun⟩
  · exact ⟨show "LIMIT -1 OFFSET" ∈ rawTexts by decide, nofun⟩
  · refine ⟨show "OFFSET" ∈ rawTexts by decide, ?_⟩
    rintro type ⟨⟩
    decide

theorem isSpaced_rowNumbers (e : Engine) (table : String) (n : Nat) :
    IsSpaced ((e.rowNumbers table).run n).1 := by
  unfold rowNumbers
  cases e.rowIds with
  | window =>
    show IsSpaced (Fragment.call "ROW_NUMBER" [] ++ [.token .over_, .token .openParen,
      .token .closeParen])
    have hover : IsSpaced [.token .over_, .token .openParen, .token .closeParen] :=
      isSpaced_tokens [.over_, .openParen, .closeParen] rfl
    exact (closed_isSpaced.call (by decide) isSpaced_nil).append hover
  | native column => exact isSpaced_ident column
  | emulated key =>
    have hselect : IsSpaced [.token .select] :=
      isSpaced_tokens [.select] rfl
    have hstar : IsSpaced [.token .star] := isSpaced_tokens [.star] rfl
    have hcount : IsSpaced (Fragment.call "COUNT" [.token .star]) :=
      closed_isSpaced.call (by decide) hstar
    have hfrom : IsSpaced [.token .from_] :=
      isSpaced_tokens [.from_] rfl
    have hwhere : IsSpaced [.token .where_] :=
      isSpaced_tokens [.where_] rfl
    have hle : IsSpaced [.raw "<="] := closed_isSpaced.chunk rfl
    exact (((((((hselect.append hcount).append hfrom).append
      ((isSpaced_ident table).named _)).append hwhere).append (isSpaced_qualified _ _)).append
      hle).append (isSpaced_qualified _ _)).parens

theorem isSpaced_tableSource (e : Engine) (table name : String) (n : Nat) :
    IsSpaced ((e.tableSource table name).run n).1 := by
  have hselect : IsSpaced [.token .select] :=
    isSpaced_tokens [.select] rfl
  have hfrom : IsSpaced [.token .comma, .token .star, .token .from_] :=
    isSpaced_tokens [.comma, .star, .from_] rfl
  exact ((hselect.append ((e.isSpaced_rowNumbers table n).named rowIdColumn)).append
    (hfrom.append (isSpaced_ident table))).parens.named name

theorem IsProvided.isSpaced_paging (h : e.IsProvided) (skip? take? : Option Nat) :
    IsSpaced ((e.paging skip? take?).getD []) := by
  have hnumber : ∀ n, IsSpaced [.number n] := fun n =>
    isSpaced_singleton trivial (by simp) (by simp)
  have hraw : ∀ text ∈ rawTexts, ∀ n, IsSpaced [.raw text, .number n] := fun text htext n =>
    (isSpaced_singleton (c := .raw text) htext (by simp) (by simp)).append (hnumber n)
  cases skip? with
  | none =>
    cases take? with
    | none => exact isSpaced_nil
    | some take => exact hraw "LIMIT" (by decide) take
  | some skip =>
    cases take? with
    | none => exact hraw e.skipAlone h.raw.1 skip
    | some take => exact (hraw "LIMIT" (by decide) take).append (hraw "OFFSET" (by decide) skip)

end Engine

/-! ### Terms -/

namespace TermWriter

variable {w : TermWriter}

theorem isSpaced_column (w : TermWriter) (c : ColumnRef) : (w.column c).IsSpaced := by
  unfold column
  split <;> exact isSpaced_qualified _ _

theorem keeps_isSpaced (h : w.engine.IsProvided) : w.Keeps IsSpaced where
  closed := closed_isSpaced
  type type hmem := isSpaced_singleton (h.raw.2 type hmem) (by simp) (by simp)
  marker m _ := isSpaced_qualified derivedTable m.name

theorem isSpaced_term (h : w.engine.IsProvided) (t : Term) : (w.term t).IsSpaced :=
  (keeps_isSpaced h).term_of_column w.isSpaced_column t

end TermWriter

/-! ### Statements -/

namespace Assembler

variable {a : Assembler}

theorem joinsKeep_isSpaced (he : a.engine.IsProvided) : a.JoinsKeep IsSpaced where
  nil := isSpaced_nil
  append := IsSpaced.append
  token {t} ht := by
    refine isSpaced_tokens [t] ?_
    revert t
    decide
  table := a.engine.isSpaced_tableSource
  on _ _ := TermWriter.isSpaced_term he _
  filter _ := TermWriter.isSpaced_term he _

theorem isSpaced_projection {w : TermWriter} (he : w.engine.IsProvided) (d : Draft) :
    IsSpaced (projection w d) := by
  have hselect : IsSpaced [.token .select] :=
    isSpaced_tokens [.select] rfl
  refine hselect.append (closed_isSpaced.joined fun f hf => ?_)
  rcases List.mem_append.mp hf with hf | hf
  · obtain ⟨o, -, rfl⟩ := List.mem_map.mp hf
    exact (TermWriter.isSpaced_term he o.value).named o.name
  · obtain ⟨⟨name, t⟩, -, rfl⟩ := List.mem_map.mp hf
    exact (w.isSpaced_column (rowIdRef t)).named name

theorem isSpaced_columns (w : TermWriter) (cs : List ColumnRef) :
    IsSpaced (Fragment.joined (cs.map w.column) .comma) := by
  refine closed_isSpaced.joined fun f hf => ?_
  obtain ⟨c, -, rfl⟩ := List.mem_map.mp hf
  exact w.isSpaced_column c

theorem isSpaced_groupClause (w : TermWriter) (outputs : List (Output Cell))
    (keys : List ColumnRef) : IsSpaced (groupClause w outputs keys) := by
  unfold groupClause
  split
  · have hgroup : IsSpaced [.token .group, .token .by_] :=
      isSpaced_tokens [.group, .by_] rfl
    exact hgroup.append (isSpaced_columns w keys)
  · exact isSpaced_nil

theorem isSpaced_ordering (a : Assembler) {w : TermWriter} (he : w.engine.IsProvided) (d : Draft) :
    IsSpaced (a.ordering w d) := by
  have horder : IsSpaced [.token .order, .token .by_] :=
    isSpaced_tokens [.order, .by_] rfl
  refine horder.append (closed_isSpaced.joined fun f hf => ?_)
  rcases List.mem_append.mp hf with hf | hf
  · obtain ⟨⟨key, direction⟩, -, rfl⟩ := List.mem_map.mp hf
    have hdirection : IsSpaced [.token (directionToken direction)] := by
      cases direction <;>
        exact isSpaced_tokens [directionToken _] rfl
    exact (TermWriter.isSpaced_term he key).append hdirection
  · obtain ⟨l, -, rfl⟩ := List.mem_map.mp hf
    exact w.isSpaced_column _

theorem isSpaced_markerColumn (a : Assembler) (keys : List ColumnRef) (m : Marker) :
    IsSpaced (a.markerColumn keys m) := by
  have hover : IsSpaced [.token .over_] := isSpaced_tokens [.over_] rfl
  have hpartition : IsSpaced [.raw "PARTITION BY"] :=
    isSpaced_singleton (show "PARTITION BY" ∈ rawTexts by decide) (by simp) (by simp)
  have hcolumns := isSpaced_columns a.writer (partition keys m)
  exact (((closed_isSpaced.call (by decide) isSpaced_nil).append hover).append
    (hpartition.append hcolumns).parens).named m.name

theorem isSpaced_derivedRows (he : a.engine.IsProvided) {kept : List TableId} {d : Draft}
    {keys : List ColumnRef} {ms : List Marker} {f : Fragment} {n n' : Nat}
    (h : (a.derivedRows kept d keys ms).run n = .ok (f, n')) : f.IsSpaced := by
  obtain ⟨source, hsource, rfl⟩ := derivedRows_run_eq_ok h
  have hselect : IsSpaced [.token .select] :=
    isSpaced_tokens [.select] rfl
  have hselection : IsSpaced (a.derivedSelection d keys ms) :=
    closed_derivedSelection closed_isSpaced
      (fun c => (a.writer.isSpaced_column c).named (derivedName c)) (a.isSpaced_markerColumn keys)
  have hfrom : IsSpaced [.token .from_] := isSpaced_tokens [.from_] rfl
  exact ((hselect.append hselection).append hfrom).append
    ((joinsKeep_isSpaced he).sources hsource)

theorem isSpaced_rowSource (he : a.engine.IsProvided) {kept : List TableId} {d : Draft}
    {keys : List ColumnRef} {ms : List Marker} {f : Fragment} {n n' : Nat}
    (h : (a.rowSource kept d keys ms).run n = .ok (f, n')) : f.IsSpaced := by
  obtain ⟨-, h⟩ | ⟨-, rows, hrows, rfl⟩ := rowSource_run_eq_ok h
  · exact (joinsKeep_isSpaced he).sources h
  · exact (isSpaced_derivedRows he hrows).parens.named derivedTable

/-- **An assembled statement** is spaced. -/
theorem isSpaced_of_assemble (he : a.engine.IsProvided) {outputs : List (Output Cell)}
    {tables : List MappedTable} {r : Assembled} {n n' : Nat}
    (h : (a.assemble outputs tables).run n = .ok (r, n')) : r.sql.IsSpaced := by
  obtain ⟨-, -, markers, source, -, hsource, hsql⟩ := assemble_run_eq_ok h
  have hw : (a.outerWriter markers).engine.IsProvided := he
  have hfrom : IsSpaced [.token .from_] := isSpaced_tokens [.from_] rfl
  rw [hsql]
  exact (((((isSpaced_projection hw _).append hfrom).append (isSpaced_rowSource he hsource)).append
    (isSpaced_groupClause _ outputs _)).append (a.isSpaced_ordering hw _)).append
    (he.isSpaced_paging _ _)

end Assembler

/-! ### Whole queries -/

/-- **The text of a statement can be read back.** On every provided engine, whatever the names and
the bound values, the text of an accepted query is split into the lexemes of its chunks, in order.
So no lexeme is made of two chunks, no comment is opened, and every name is closed by its own
quote. -/
theorem lex_render_compile {settings : Settings} (he : settings.engine.IsProvided) {q : QuerySpec}
    {mapping : Expr} {query : Query} {n n' : Nat}
    (h : (q.compile settings mapping).run n = .ok (query, n')) {arguments : Document}
    {r : Rendered} (hr : query.render arguments = .ok r) :
    ∃ bound, query.pool.bind arguments = .ok bound ∧
      lex r.text = query.sql.lexemes settings.engine.dialect bound ∧
      ∀ l ∈ lex r.text, l.isOpen = false := by
  obtain ⟨st, assembled, -, hassembled, rfl⟩ := QuerySpec.compile_run_eq_ok_iff.mp h
  have hspaced : assembled.sql.IsSpaced :=
    Assembler.isSpaced_of_assemble (a := st.assembler settings.engine) he hassembled
  obtain ⟨bound, hbound, hr⟩ := Result.bind_eq_ok_iff.mp hr
  have hlex := lex_render hspaced hr
  refine ⟨bound, hbound, hlex, ?_⟩
  rw [hlex]
  exact hspaced.isOpen_of_mem_lexemes settings.engine.dialect bound

/-- People of some names, in a table whose names hold quotes, points and what opens a comment. -/
def oddPeople : QuerySpec where
  primary := ⟨"person", ⟨"per\"son -- all",
    [⟨"id", some "", .integer⟩, ⟨"name", some "a\".b /*", .text⟩]⟩⟩
  filters := [.binary .isIn (shapeField "person" "name") (.member .args "names")]

/-- The negative number of each person and the name, under odd names. -/
def oddMapping : Expr :=
  .object [("", .unary .negate (shapeField "person" "id")),
    ("the \"name\"", shapeField "person" "name")]

/-- The odd names are read back from the text for two names. -/
theorem lex_render_compile_oddPeople :
    Engine.postgres.IsProvided ∧
      ∃ query n' r bound, (oddPeople.compile { engine := .postgres } oddMapping).run 0 =
          .ok (query, n') ∧
        query.render (.object [("names", .array [.text "Ann", .text "Bo"])]) = .ok r ∧
        lex r.text = query.sql.lexemes .postgresql bound ∧
        (∀ l ∈ lex r.text, l.isOpen = false) ∧
        (lex r.text).take 7 = [.word "SELECT", .operator "-", .name "t0", .mark '.', .name "",
          .word "AS", .name ""] := by
  have hprovided : Engine.postgres.IsProvided := Or.inr (Or.inr rfl)
  have hrun : ((oddPeople.compile { engine := .postgres } oddMapping).run 0).any (fun x =>
      (x.1.render (.object [("names", .array [.text "Ann", .text "Bo"])])).any fun r =>
        (lex r.text).take 7 == [.word "SELECT", .operator "-", .name "t0", .mark '.', .name "",
          .word "AS", .name ""]) = true := by
    decide +kernel
  obtain ⟨⟨query, n'⟩, hquery, hrender⟩ := Result.any_eq_true_iff.mp hrun
  obtain ⟨r, hr, hfirst⟩ := Result.any_eq_true_iff.mp hrender
  obtain ⟨bound, -, hlex, hopen⟩ := lex_render_compile hprovided hquery hr
  exact ⟨hprovided, query, n', r, bound, hquery, hr, hlex, hopen, beq_iff_eq.mp hfirst⟩

end NestedQuery
