import NestedQuery.Proofs.Sql.Closed

/-!
# The tables that a statement reads from

A statement reads from a table where its text says `* FROM "table") AS "name"`, which is how every
table source ends. `Fragment.sourceNames` lists these names from left to right.

`Fragment.Reads` says which names a part adds to those of any statement that it stands in. A part
without a star adds none (`reads_of_isStarless`), and that is every part but the table sources, of
which each adds its own name (`reads_tableSource`).
-/

namespace NestedQuery

namespace Fragment

/-- The name of the table source whose end the fragment starts with. -/
def sourceName? : Fragment → Option String
  | .token .star :: .token .from_ :: .ident _ :: .token .closeParen :: .token .as_ :: .ident name
    :: _ => some name
  | _ => none

/-- The names of the tables that a fragment reads from, left to right. -/
def sourceNames : Fragment → List String
  | [] => []
  | c :: rest => (sourceName? (c :: rest)).toList ++ sourceNames rest

/-- Wherever the fragment stands, it adds the names `ns` to those after it. -/
def Reads (f : Fragment) (ns : List String) : Prop :=
  ∀ g, sourceNames (f ++ g) = ns ++ sourceNames g

theorem Reads.sourceNames_eq {f : Fragment} {ns : List String} (h : Reads f ns) :
    sourceNames f = ns := by
  have h := h []
  rwa [List.append_nil, sourceNames, List.append_nil] at h

theorem reads_nil : Reads [] [] := fun _ => rfl

theorem Reads.append {f g : Fragment} {ns ms : List String} (hf : Reads f ns) (hg : Reads g ms) :
    Reads (f ++ g) (ns ++ ms) := by
  intro rest
  rw [List.append_assoc, hf, hg, List.append_assoc]

/-- Only a star can begin the end of a table source. -/
theorem sourceName?_cons {c : Chunk} (hc : c ≠ .token .star) (rest : Fragment) :
    sourceName? (c :: rest) = none := by
  unfold sourceName?
  split
  · rename_i heq
    exact absurd (List.cons.inj heq).1 hc
  · rfl

/-- The fragment has no star. -/
def IsStarless (f : Fragment) : Prop :=
  ∀ c ∈ f, c ≠ .token .star

theorem IsStarless.append {f g : Fragment} (hf : IsStarless f) (hg : IsStarless g) :
    IsStarless (f ++ g) :=
  List.forall_mem_append.mpr ⟨hf, hg⟩

theorem isStarless_singleton {c : Chunk} (hc : c ≠ .token .star) : IsStarless [c] :=
  List.forall_mem_singleton.mpr hc

theorem isStarless_qualified (table column : String) : IsStarless (qualified table column) := by
  simp [IsStarless, qualified]

theorem IsStarless.named {f : Fragment} (hf : IsStarless f) (name : String) :
    IsStarless (f.named name) :=
  hf.append (by simp [IsStarless])

/-- Having no star is closed under all that terms are put together with. -/
theorem closed_isStarless : Closed IsStarless where
  nil := List.forall_mem_nil _
  append := IsStarless.append
  chunk hc := isStarless_singleton (by
    rintro rfl
    exact absurd hc (by decide))
  minus _ h := List.forall_mem_cons.mpr ⟨by simp, h⟩
  parens h := ((isStarless_singleton (by simp)).append h).append (isStarless_singleton (by simp))
  function _ h := List.forall_mem_cons.mpr ⟨by simp,
    ((isStarless_singleton (by simp)).append h).append (isStarless_singleton (by simp))⟩
  inList _ _ := isStarless_singleton (by simp)

/-- Without a star nothing is read from. -/
theorem reads_of_isStarless {f : Fragment} (hf : IsStarless f) : Reads f [] := by
  induction f with
  | nil => exact reads_nil
  | cons c f ih =>
    obtain ⟨hc, hf⟩ := List.forall_mem_cons.mp hf
    intro rest
    rw [List.cons_append, sourceNames, sourceName?_cons hc, Option.toList_none, List.nil_append,
      ih hf]

theorem reads_singleton {c : Chunk} (hc : c ≠ .token .star) : Reads [c] [] :=
  reads_of_isStarless (isStarless_singleton hc)

theorem Reads.named {f : Fragment} {ns : List String} (hf : Reads f ns) (name : String) :
    Reads (f.named name) ns := by
  have hname : Reads [.token .as_, .ident name] [] :=
    reads_of_isStarless (by simp [IsStarless])
  have h := hf.append hname
  rwa [List.append_nil] at h

end Fragment

open Fragment

/-! ### Engines -/

namespace Engine

theorem isStarless_paging (e : Engine) (skip? take? : Option Nat) :
    IsStarless ((e.paging skip? take?).getD []) := by
  cases skip? <;> cases take? <;> simp [IsStarless, paging]

/-- A window or a column of row numbers has no star. -/
theorem isStarless_rowNumbers {e : Engine} (he : ∀ key, e.rowIds ≠ .emulated key) (table : String)
    (n : Nat) : IsStarless ((e.rowNumbers table).run n).1 := by
  unfold rowNumbers
  cases hrowIds : e.rowIds with
  | window =>
    show IsStarless (Fragment.call "ROW_NUMBER" [] ++ _)
    simp [IsStarless, Fragment.call, Fragment.parens, Fragment.isSubquery]
  | native column => exact isStarless_singleton (c := .ident column) (by simp)
  | emulated key => exact absurd hrowIds (he key)

theorem reads_rowNumbers (e : Engine) (table : String) (n : Nat) :
    Reads ((e.rowNumbers table).run n).1 [] := by
  by_cases he : ∃ key, e.rowIds = .emulated key
  · obtain ⟨key, hkey⟩ := he
    rw [rowNumbers, hkey]
    -- The star of `COUNT(*)` is followed by a parenthesis, not by `FROM`.
    exact fun _ => rfl
  · exact reads_of_isStarless (isStarless_rowNumbers (not_exists.mp he) table n)

/-- A table source reads from the table of its name. -/
theorem reads_tableSource (e : Engine) (table name : String) (n : Nat) :
    Reads ((e.tableSource table name).run n).1 [name] := by
  have hopen : Reads [.token .openParen, .token .select] [] :=
    reads_of_isStarless (by simp [IsStarless])
  have hcomma : Reads [.token .comma] [] := reads_singleton (by simp)
  have hend : Reads [.token .star, .token .from_, .ident table, .token .closeParen, .token .as_,
      .ident name] [name] := fun _ => rfl
  have h := ((hopen.append ((e.reads_rowNumbers table n).named rowIdColumn)).append
    hcomma).append hend
  have heq : ((e.tableSource table name).run n).1 =
      [.token .openParen, .token .select] ++
        Fragment.named ((e.rowNumbers table).run n).1 rowIdColumn ++ [.token .comma] ++
        [.token .star, .token .from_, .ident table, .token .closeParen, .token .as_,
          .ident name] := by
    show Fragment.named (Fragment.parens ([.token .select] ++
      Fragment.named ((e.rowNumbers table).run n).1 rowIdColumn ++
        [.token .comma, .token .star, .token .from_, .ident table])) name = _
    simp [Fragment.named, Fragment.parens]
  rwa [heq]

end Engine

/-! ### Terms -/

namespace TermWriter

theorem isStarless_column (w : TermWriter) (c : ColumnRef) : IsStarless (w.column c) := by
  unfold column
  split <;> exact isStarless_qualified _ _

theorem keeps_isStarless (w : TermWriter) : w.Keeps IsStarless where
  closed := closed_isStarless
  type _ _ := isStarless_singleton (by simp)
  marker _ _ := isStarless_qualified _ _

/-- **Terms have no star**, so they read from no table. -/
theorem isStarless_term (w : TermWriter) (t : Term) : IsStarless (w.term t) :=
  w.keeps_isStarless.term_of_column w.isStarless_column t

end TermWriter

end NestedQuery
