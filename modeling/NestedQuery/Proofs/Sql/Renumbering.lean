import NestedQuery.Proofs.Mapping.Embedding
import NestedQuery.Proofs.Sql.Closed
import NestedQuery.Sql.Render

/-!
# Statements under other numbers of tables

In a larger statement the tables have other numbers, and so have the parameters. A fragment is
written there with these numbers in its names (`Fragment.Renumbers`), and otherwise as before.
Names that the query brings along, such as those of its columns, are never changed, even if they
look like the name of a table.

If the parameters have the same values there, both fragments are rendered alike: both fail, or both
succeed with the same values and with texts that differ in the numbers of tables only
(`Fragment.Renumbers.render`).
-/

namespace NestedQuery

/-! ### Runs that succeed together -/

/-- Both runs fail, or both succeed with related results. -/
def Result.Matches {α β : Type} (R : α → β → Prop) : Result α → Result β → Prop
  | .ok a, .ok b => R a b
  | .error _, .error _ => True
  | _, _ => False

section

variable {α β γ δ : Type} {R : α → β → Prop} {S : γ → δ → Prop}

theorem Result.Matches.bind {x : Result α} {y : Result β} (h : x.Matches R y)
    {f : α → Result γ} {g : β → Result δ} (hfg : ∀ a b, R a b → (f a).Matches S (g b)) :
    (x >>= f).Matches S (y >>= g) := by
  cases x with
  | error e =>
    cases y with
    | error e' => exact trivial
    | ok b => exact h.elim
  | ok a =>
    cases y with
    | error e' => exact h.elim
    | ok b => exact hfg a b h

theorem Result.Matches.exists_left {x : Result α} {y : Result β} (h : x.Matches R y) {b : β}
    (hb : y = .ok b) : ∃ a, x = .ok a ∧ R a b := by
  subst hb
  cases x with
  | error e => exact h.elim
  | ok a => exact ⟨a, rfl, h⟩

theorem Result.Matches.exists_right {x : Result α} {y : Result β} (h : x.Matches R y) {a : α}
    (ha : x = .ok a) : ∃ b, y = .ok b ∧ R a b := by
  subst ha
  cases y with
  | error e => exact h.elim
  | ok b => exact ⟨b, rfl, h⟩

end

theorem forall₂_map_map {α β γ : Type} {R : β → γ → Prop} {l : List α} {p : α → β} {p' : α → γ}
    (hl : ∀ a ∈ l, R (p a) (p' a)) : List.Forall₂ R (l.map p) (l.map p') :=
  List.forall₂_map_left_iff.mpr (List.forall₂_map_right_iff.mpr (List.forall₂_same.mpr hl))

/-! ### Names -/

/-- The name is one of the query's own, or no name that the statement makes from the number of a
table: these start with a small t. -/
def IsOwnName (own : List String) (name : String) : Prop :=
  name ∈ own ∨ name.toList.head? ≠ some 't'

/-- A name in the larger statement: the name of a table and the name of one of its columns have the
new number, and every other name is the same. -/
inductive NameRenumbers (f : Embedding) (own : List String) : String → String → Prop
  /-- A name without a number. -/
  | same {name : String} : IsOwnName own name → NameRenumbers f own name name
  /-- The name of a table. -/
  | table (t : TableId) : NameRenumbers f own (tableAlias t) (tableAlias (f.table t))
  /-- The name under which a column of a table is handed on. -/
  | member (t : TableId) (column : String) :
    NameRenumbers f own (tableAlias t ++ "." ++ column) (tableAlias (f.table t) ++ "." ++ column)

/-! ### Fragments -/

mutual

/-- A chunk in the larger statement. -/
inductive Chunk.Renumbers (f : Embedding) (own : List String) : Chunk → Chunk → Prop
  | token (t : Token) : Chunk.Renumbers f own (.token t) (.token t)
  | ident {name name' : String} :
    NameRenumbers f own name name' → Chunk.Renumbers f own (.ident name) (.ident name')
  | raw (text : String) : Chunk.Renumbers f own (.raw text) (.raw text)
  | function (name : String) : Chunk.Renumbers f own (.function name) (.function name)
  | number (n : Nat) : Chunk.Renumbers f own (.number n) (.number n)
  | param (id : ParamId) : Chunk.Renumbers f own (.param id) (.param (f.param id))
  | inList {subject subject' : Fragment} (id : ParamId) :
    Fragment.Renumbers f own subject subject' →
      Chunk.Renumbers f own (.inList subject id) (.inList subject' (f.param id))

/-- A fragment in the larger statement. -/
inductive Fragment.Renumbers (f : Embedding) (own : List String) : Fragment → Fragment → Prop
  | nil : Fragment.Renumbers f own [] []
  | cons {c c' : Chunk} {g g' : Fragment} : Chunk.Renumbers f own c c' →
    Fragment.Renumbers f own g g' → Fragment.Renumbers f own (c :: g) (c' :: g')

end

/-- The chunk has no number of a table or parameter. -/
def Chunk.isConstant : Chunk → Bool
  | .token _ | .raw _ | .function _ | .number _ => true
  | _ => false

section

variable {f : Embedding} {own : List String} {c c' : Chunk} {g g' h h' : Fragment}

theorem Chunk.Renumbers.refl (hc : c.isConstant) : c.Renumbers f own c := by
  cases c with
  | token t => exact .token t
  | raw text => exact .raw text
  | function name => exact .function name
  | number n => exact .number n
  | _ => cases hc

namespace Fragment.Renumbers

theorem refl (hg : g.all Chunk.isConstant) : Renumbers f own g g := by
  induction g with
  | nil => exact .nil
  | cons c g ih =>
    obtain ⟨hc, hg⟩ := Bool.and_eq_true_iff.mp hg
    exact .cons (.refl hc) (ih hg)

theorem append (hg : Renumbers f own g g') (hh : Renumbers f own h h') :
    Renumbers f own (g ++ h) (g' ++ h') := by
  induction g generalizing g' with
  | nil =>
    cases hg
    exact hh
  | cons c g ih =>
    cases hg with
    | cons hc hg => exact .cons hc (ih hg)

theorem token (t : Token) (hg : Renumbers f own g g') :
    Renumbers f own (.token t :: g) (.token t :: g') :=
  .cons (.token t) hg

theorem parens (hg : Renumbers f own g g') : Renumbers f own g.parens g'.parens :=
  (token .openParen hg).append (refl rfl)

theorem ident {name name' : String} (hname : NameRenumbers f own name name') :
    Renumbers f own (Fragment.ident name) (Fragment.ident name') :=
  .cons (.ident hname) .nil

theorem qualified {table table' column column' : String}
    (htable : NameRenumbers f own table table') (hcolumn : NameRenumbers f own column column') :
    Renumbers f own (Fragment.qualified table column) (Fragment.qualified table' column') :=
  .cons (.ident htable) (token .dot (ident hcolumn))

theorem named (hg : Renumbers f own g g') {name name' : String}
    (hname : NameRenumbers f own name name') :
    Renumbers f own (g.named name) (g'.named name') :=
  hg.append (token .as_ (ident hname))

theorem isSubquery_eq (hg : Renumbers f own g g') : g'.isSubquery = g.isSubquery := by
  cases hg with
  | nil => rfl
  | cons hc _ =>
    cases hc with
    | token t => cases t <;> rfl
    | _ => rfl

theorem call (name : String) (hg : Renumbers f own g g') :
    Renumbers f own (Fragment.call name g) (Fragment.call name g') := by
  unfold Fragment.call
  rw [hg.isSubquery_eq]
  refine .cons (.function name) (parens ?_)
  split
  · exact hg.parens
  · exact hg

theorem joined {gs gs' : List Fragment} (hgs : List.Forall₂ (Renumbers f own) gs gs') :
    Renumbers f own (Fragment.joined gs .comma) (Fragment.joined gs' .comma) := by
  unfold Fragment.joined
  induction hgs with
  | nil => exact .nil
  | cons hg hgs ih =>
    cases hgs with
    | nil => rwa [List.intercalate_singleton, List.intercalate_singleton]
    | cons _ _ =>
      rw [List.intercalate_cons_cons, List.intercalate_cons_cons]
      exact (hg.append (refl rfl)).append ih

end Fragment.Renumbers

/-! ### Rendering -/

/-- A piece in the larger statement. -/
inductive Piece.Renumbers (f : Embedding) (own : List String) : Piece → Piece → Prop
  /-- Text that is no name. -/
  | text (s : String) : Piece.Renumbers f own (.text s) (.text s)
  /-- A name. -/
  | name {name name' : String} : NameRenumbers f own name name' →
    Piece.Renumbers f own (.text (quotedName name)) (.text (quotedName name'))
  /-- A value. -/
  | hole (v : Value) : Piece.Renumbers f own (.hole v) (.hole v)

/-- The pieces in the larger statement. -/
abbrev RenumbersAll (f : Embedding) (own : List String) : List Piece → List Piece → Prop :=
  List.Forall₂ (Piece.Renumbers f own)

theorem RenumbersAll.append {ps ps' qs qs' : List Piece} (hp : RenumbersAll f own ps ps')
    (hq : RenumbersAll f own qs qs') : RenumbersAll f own (ps ++ qs) (ps' ++ qs') :=
  List.rel_append hp hq

theorem RenumbersAll.refl (ps : List Piece) : RenumbersAll f own ps ps := by
  refine List.forall₂_same.mpr fun p _ => ?_
  cases p with
  | text s => exact .text s
  | hole v => exact .hole v

/-- The chunk without its names and numbers, which the spaces around it do not depend on. -/
def Chunk.bare : Chunk → Chunk
  | .ident _ => .ident ""
  | .param _ => .param 0
  | .inList _ _ => .inList [] 0
  | c => c

theorem Chunk.needsSpace_bare (c d : Chunk) : c.bare.needsSpace d.bare = c.needsSpace d := by
  cases c with
  | token t =>
    cases d with
    | token u => rfl
    | _ => cases t <;> rfl
  | _ =>
    cases d with
    | token t => cases t <;> rfl
    | _ => rfl

theorem Chunk.Renumbers.bare_eq (hc : c.Renumbers f own c') : c'.bare = c.bare := by
  cases hc <;> rfl

theorem Chunk.Renumbers.needsSpace_eq {d d' : Chunk} (hc : c.Renumbers f own c')
    (hd : d.Renumbers f own d') : c'.needsSpace d' = c.needsSpace d := by
  rw [← needsSpace_bare, hc.bare_eq, hd.bare_eq, needsSpace_bare]

theorem Fragment.Renumbers.gap_eq (hc : c.Renumbers f own c') (hg : g.Renumbers f own g') :
    gap c' g' = gap c g := by
  cases hg with
  | nil => rfl
  | cons hd _ => rw [gap, gap, hc.needsSpace_eq hd]

variable {bound bound' : List Value}

theorem boundValue_matches (hbound : ∀ id, bound'[f.param id]? = bound[id]?) (id : ParamId) :
    (boundValue bound id).Matches (· = ·) (boundValue bound' (f.param id)) := by
  rw [boundValue, boundValue, hbound]
  cases bound[id]? with
  | none => exact trivial
  | some v => exact rfl

theorem paramHole_matches (id id' : ParamId) (v : Value) :
    (paramHole id v).Matches (Piece.Renumbers f own) (paramHole id' v) := by
  cases v with
  | list items => exact trivial
  | _ => exact Piece.Renumbers.hole _

theorem listItems_matches (id id' : ParamId) (v : Value) :
    (listItems id v).Matches (· = ·) (listItems id' v) := by
  cases v with
  | list items => exact Eq.refl items
  | _ => exact trivial

mutual

theorem Chunk.Renumbers.pieces (hbound : ∀ id, bound'[f.param id]? = bound[id]?) :
    ∀ c : Chunk, ∀ {c' : Chunk}, c.Renumbers f own c' →
      (c.pieces bound).Matches (RenumbersAll f own) (c'.pieces bound')
  | _, _, .token _ | _, _, .raw _ | _, _, .function _ | _, _, .number _ => RenumbersAll.refl _
  | _, _, .ident h => .cons (.name h) .nil
  | _, _, .param id => by
    rw [Chunk.pieces, Chunk.pieces]
    refine (boundValue_matches hbound id).bind fun v _ => ?_
    rintro rfl
    exact (paramHole_matches id (f.param id) v).bind fun p p' hp => List.Forall₂.cons hp .nil
  | .inList subject _, _, .inList id hsubject => by
    rw [Chunk.pieces, Chunk.pieces]
    refine (boundValue_matches hbound id).bind fun v _ => ?_
    rintro rfl
    refine (listItems_matches id (f.param id) v).bind fun items _ => ?_
    rintro rfl
    cases items.isEmpty with
    | true => exact RenumbersAll.refl [.text falsePredicate]
    | false =>
      refine (Fragment.Renumbers.pieces hbound subject hsubject).bind fun ps ps' hps => ?_
      exact (RenumbersAll.append hps (.refl (.text " IN (" :: holes items))).append
        (.refl [.text ")"])

/-- **Both fragments have the same pieces**, up to numbers of tables. -/
theorem Fragment.Renumbers.pieces (hbound : ∀ id, bound'[f.param id]? = bound[id]?) :
    ∀ g : List Chunk, ∀ {g' : List Chunk}, Fragment.Renumbers f own g g' →
      (piecesOf bound g).Matches (RenumbersAll f own) (piecesOf bound' g')
  | [], _, .nil => .nil
  | c :: g, _, .cons hc hg => by
    rw [piecesOf, piecesOf, hg.gap_eq hc]
    refine (Chunk.Renumbers.pieces hbound c hc).bind fun ps ps' hps => ?_
    refine (Fragment.Renumbers.pieces hbound g hg).bind fun qs qs' hqs => ?_
    exact (RenumbersAll.append hps (.refl (gap c g))).append hqs

end

/-- The statement in the larger statement: the same values, and a text of the same pieces up to
numbers of tables. -/
def Rendered.Renumbers (f : Embedding) (own : List String) (dialect : Dialect)
    (r r' : Rendered) : Prop :=
  r'.params = r.params ∧ ∃ ps ps', RenumbersAll f own ps ps' ∧
    r.text = spell dialect 0 ps ∧ r'.text = spell dialect 0 ps'

theorem RenumbersAll.holeValues_eq {ps ps' : List Piece} (h : RenumbersAll f own ps ps') :
    holeValues ps' = holeValues ps := by
  induction h with
  | nil => rfl
  | cons hp _ ih =>
    cases hp with
    | hole v => exact congrArg (v :: ·) ih
    | _ => exact ih

/-- **Both fragments are rendered alike**, up to numbers of tables. -/
theorem Fragment.Renumbers.render (hbound : ∀ id, bound'[f.param id]? = bound[id]?)
    (hg : g.Renumbers f own g') (dialect : Dialect) :
    (g.render dialect bound).Matches (Rendered.Renumbers f own dialect)
      (g'.render dialect bound') :=
  (hg.pieces hbound g).bind fun ps ps' h => ⟨h.holeValues_eq, ps, ps', h, rfl, rfl⟩

end

end NestedQuery
