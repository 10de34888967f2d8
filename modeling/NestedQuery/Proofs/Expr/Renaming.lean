import Mathlib.Logic.Basic
import NestedQuery.Mapping.Operand

/-!
# Renaming the parameters of selections

Two expressions differ only in the names of the parameters of their `select`s if every variable of
one stands for the same parameter as that of the other. `Expr.Renames` says so by the rules of the
syntax: below two `select`s their names belong together, and variables belong together if the same
`select`s bind them (`SameParameter`), however often a name is bound again. No variable is captured,
since a name that belongs to another `select` on one side only is told apart.

An expression that reads no row has no parameters to rename (`Expr.Renames.eq_of_not_readsRow`).
-/

namespace NestedQuery

/-- The names of two variables that stand for the same parameter. `names` are the parameters of the
`select`s around them in both expressions, innermost first. -/
inductive SameParameter : (names : List (String × String)) → String → String → Prop
  /-- Outside all `select`s, variables are the same if their names are. -/
  | free (name : String) : SameParameter [] name name
  /-- The innermost `select` binds both. -/
  | here {names : List (String × String)} (m n : String) : SameParameter ((m, n) :: names) m n
  /-- The innermost `select` binds neither. -/
  | there {names : List (String × String)} {m n m' n' : String} :
    m ≠ m' → n ≠ n' → SameParameter names m n → SameParameter ((m', n') :: names) m n

namespace Expr

mutual

/-- The expressions are the same apart from the names of parameters. -/
inductive Renames : (names : List (String × String)) → Expr → Expr → Prop
  | row {names} : Renames names row row
  | args {names} : Renames names args args
  | var {names} {m n : String} : SameParameter names m n → Renames names (var m) (var n)
  | constant {names} (v : Value) : Renames names (constant v) (constant v)
  | member {names} {base base' : Expr} (name : String) :
    Renames names base base' → Renames names (member base name) (member base' name)
  | unary {names} (op : UnaryOp) {e e' : Expr} :
    Renames names e e' → Renames names (unary op e) (unary op e')
  | binary {names} (op : BinaryOp) {l l' r r' : Expr} :
    Renames names l l' → Renames names r r' → Renames names (binary op l r) (binary op l' r')
  | tuple {names} {es es' : List Expr} :
    RenamesAll names es es' → Renames names (tuple es) (tuple es')
  | array {names} {es es' : List Expr} :
    RenamesAll names es es' → Renames names (array es) (array es')
  | object {names} {es es' : List (String × Expr)} :
    RenamesMembers names es es' → Renames names (object es) (object es')
  | conditional {names} {t t' v v' o o' : Expr} :
    Renames names t t' → Renames names v v' → Renames names o o' →
      Renames names (conditional t v o) (conditional t' v' o')
  | cases {names} {bs bs' : List (Expr × Expr)} {o o' : Expr} :
    RenamesBranches names bs bs' → Renames names o o' → Renames names (cases bs o) (cases bs' o')
  | casesOf {names} {k k' : Expr} {bs bs' : List (Expr × Expr)} {o o' : Expr} :
    Renames names k k' → RenamesBranches names bs bs' → Renames names o o' →
      Renames names (casesOf k bs o) (casesOf k' bs' o')
  | aggregate {names} (function : Aggregate) {e e' : Expr} :
    Renames names e e' → Renames names (aggregate function e) (aggregate function e')
  | apply {names} (function : Function) {e e' : Expr} :
    Renames names e e' → Renames names (apply function e) (apply function e')
  /-- The parameter may have another name in its body. -/
  | select {names} {source source' body body' : Expr} (m n : String) :
    Renames names source source' → Renames ((m, n) :: names) body body' →
      Renames names (select source m body) (select source' n body')
  | toList {names} {e e' : Expr} : Renames names e e' → Renames names (toList e) (toList e')
  | one {names} {e e' : Expr} : Renames names e e' → Renames names (one e) (one e')
  | rowNumber {names} : Renames names rowNumber rowNumber
  | isIn {names} {v v' set set' : Expr} :
    Renames names v v' → Renames names set set' → Renames names (isIn v set) (isIn v' set')
  | contains {names} {set set' v v' : Expr} :
    Renames names set set' → Renames names v v' → Renames names (contains set v) (contains set' v')
  | method {names} {e e' : Expr} (name : String) {es es' : List Expr} :
    Renames names e e' → RenamesAll names es es' →
      Renames names (method e name es) (method e' name es')

/-- The same for several expressions. -/
inductive RenamesAll : (names : List (String × String)) → List Expr → List Expr → Prop
  | nil {names} : RenamesAll names [] []
  | cons {names} {e e' : Expr} {es es' : List Expr} :
    Renames names e e' → RenamesAll names es es' → RenamesAll names (e :: es) (e' :: es')

/-- The same for the members of an object, whose names stay. -/
inductive RenamesMembers :
    (names : List (String × String)) → List (String × Expr) → List (String × Expr) → Prop
  | nil {names} : RenamesMembers names [] []
  | cons {names} (name : String) {e e' : Expr} {es es' : List (String × Expr)} :
    Renames names e e' → RenamesMembers names es es' →
      RenamesMembers names ((name, e) :: es) ((name, e') :: es')

/-- The same for the branches of a case. -/
inductive RenamesBranches :
    (names : List (String × String)) → List (Expr × Expr) → List (Expr × Expr) → Prop
  | nil {names} : RenamesBranches names [] []
  | cons {names} {t t' v v' : Expr} {bs bs' : List (Expr × Expr)} :
    Renames names t t' → Renames names v v' → RenamesBranches names bs bs' →
      RenamesBranches names ((t, v) :: bs) ((t', v') :: bs')

end

/-! ### Expressions without rows -/

mutual

/-- Renaming does not change whether an expression reads a row. -/
theorem Renames.readsRow_eq {names : List (String × String)} :
    {e e' : Expr} → Renames names e e' → e'.readsRow = e.readsRow
  | _, _, .row | _, _, .args | _, _, .var _ | _, _, .constant _ | _, _, .rowNumber => rfl
  | _, _, .select .. => rfl
  | _, _, .member _ h | _, _, .unary _ h | _, _, .aggregate _ h | _, _, .apply _ h => h.readsRow_eq
  | _, _, .toList h | _, _, .one h => h.readsRow_eq
  | _, _, .binary _ hl hr => congrArg₂ or hl.readsRow_eq hr.readsRow_eq
  | _, _, .tuple h | _, _, .array h => h.anyReadsRow_eq
  | _, _, .object h => h.anyMemberReadsRow_eq
  | _, _, .conditional ht hv ho =>
    congrArg₂ or (congrArg₂ or ht.readsRow_eq hv.readsRow_eq) ho.readsRow_eq
  | _, _, .cases hbs ho => congrArg₂ or hbs.anyBranchReadsRow_eq ho.readsRow_eq
  | _, _, .casesOf hk hbs ho =>
    congrArg₂ or (congrArg₂ or hk.readsRow_eq hbs.anyBranchReadsRow_eq) ho.readsRow_eq
  | _, _, .isIn hv hset => congrArg₂ or hv.readsRow_eq hset.readsRow_eq
  | _, _, .contains hset hv => congrArg₂ or hv.readsRow_eq hset.readsRow_eq
  | _, _, .method _ h hes => congrArg₂ or h.readsRow_eq hes.anyReadsRow_eq

theorem RenamesAll.anyReadsRow_eq {names : List (String × String)} :
    {es es' : List Expr} → RenamesAll names es es' → anyReadsRow es' = anyReadsRow es
  | _, _, .nil => rfl
  | _, _, .cons h hes => congrArg₂ or h.readsRow_eq hes.anyReadsRow_eq

theorem RenamesMembers.anyMemberReadsRow_eq {names : List (String × String)} :
    {es es' : List (String × Expr)} → RenamesMembers names es es' →
      anyMemberReadsRow es' = anyMemberReadsRow es
  | _, _, .nil => rfl
  | _, _, .cons _ h hes => congrArg₂ or h.readsRow_eq hes.anyMemberReadsRow_eq

theorem RenamesBranches.anyBranchReadsRow_eq {names : List (String × String)} :
    {bs bs' : List (Expr × Expr)} → RenamesBranches names bs bs' →
      anyBranchReadsRow bs' = anyBranchReadsRow bs
  | _, _, .nil => rfl
  | _, _, .cons ht hv hbs =>
    congrArg₂ or (congrArg₂ or ht.readsRow_eq hv.readsRow_eq) hbs.anyBranchReadsRow_eq

end

mutual

/-- **An expression that reads no row** has no parameters to rename. -/
theorem Renames.eq_of_not_readsRow {names : List (String × String)} :
    {e e' : Expr} → Renames names e e' → e.readsRow = false → e' = e
  | _, _, .row, h | _, _, .var _, h | _, _, .rowNumber, h => (Bool.false_ne_true h.symm).elim
  | _, _, .select .., h => (Bool.false_ne_true h.symm).elim
  | _, _, .args, _ | _, _, .constant _, _ => rfl
  | _, _, .member name h, hrow => congrArg (member · name) (h.eq_of_not_readsRow hrow)
  | _, _, .unary op h, hrow => congrArg (unary op) (h.eq_of_not_readsRow hrow)
  | _, _, .aggregate function h, hrow => congrArg (aggregate function) (h.eq_of_not_readsRow hrow)
  | _, _, .apply function h, hrow => congrArg (apply function) (h.eq_of_not_readsRow hrow)
  | _, _, .toList h, hrow => congrArg toList (h.eq_of_not_readsRow hrow)
  | _, _, .one h, hrow => congrArg one (h.eq_of_not_readsRow hrow)
  | _, _, .tuple h, hrow => congrArg tuple (h.eq_of_not_anyReadsRow hrow)
  | _, _, .array h, hrow => congrArg array (h.eq_of_not_anyReadsRow hrow)
  | _, _, .object h, hrow => congrArg object (h.eq_of_not_anyMemberReadsRow hrow)
  | _, _, .binary op hl hr, hrow => by
    obtain ⟨hrowl, hrowr⟩ := Bool.or_eq_false_iff.mp hrow
    rw [hl.eq_of_not_readsRow hrowl, hr.eq_of_not_readsRow hrowr]
  | _, _, .conditional ht hv ho, hrow => by
    obtain ⟨hrowtv, hrowo⟩ := Bool.or_eq_false_iff.mp hrow
    obtain ⟨hrowt, hrowv⟩ := Bool.or_eq_false_iff.mp hrowtv
    rw [ht.eq_of_not_readsRow hrowt, hv.eq_of_not_readsRow hrowv, ho.eq_of_not_readsRow hrowo]
  | _, _, .cases hbs ho, hrow => by
    obtain ⟨hrowbs, hrowo⟩ := Bool.or_eq_false_iff.mp hrow
    rw [hbs.eq_of_not_anyBranchReadsRow hrowbs, ho.eq_of_not_readsRow hrowo]
  | _, _, .casesOf hk hbs ho, hrow => by
    obtain ⟨hrowkbs, hrowo⟩ := Bool.or_eq_false_iff.mp hrow
    obtain ⟨hrowk, hrowbs⟩ := Bool.or_eq_false_iff.mp hrowkbs
    rw [hk.eq_of_not_readsRow hrowk, hbs.eq_of_not_anyBranchReadsRow hrowbs,
      ho.eq_of_not_readsRow hrowo]
  | _, _, .isIn hv hset, hrow => by
    obtain ⟨hrowv, hrowset⟩ := Bool.or_eq_false_iff.mp hrow
    rw [hv.eq_of_not_readsRow hrowv, hset.eq_of_not_readsRow hrowset]
  | _, _, .contains hset hv, hrow => by
    obtain ⟨hrowv, hrowset⟩ := Bool.or_eq_false_iff.mp hrow
    rw [hv.eq_of_not_readsRow hrowv, hset.eq_of_not_readsRow hrowset]
  | _, _, .method name h hes, hrow => by
    obtain ⟨hrowe, hrowes⟩ := Bool.or_eq_false_iff.mp hrow
    rw [h.eq_of_not_readsRow hrowe, hes.eq_of_not_anyReadsRow hrowes]

theorem RenamesAll.eq_of_not_anyReadsRow {names : List (String × String)} :
    {es es' : List Expr} → RenamesAll names es es' → anyReadsRow es = false → es' = es
  | _, _, .nil, _ => rfl
  | _, _, .cons h hes, hrow => by
    obtain ⟨hrowe, hrowes⟩ := Bool.or_eq_false_iff.mp hrow
    rw [h.eq_of_not_readsRow hrowe, hes.eq_of_not_anyReadsRow hrowes]

theorem RenamesMembers.eq_of_not_anyMemberReadsRow {names : List (String × String)} :
    {es es' : List (String × Expr)} → RenamesMembers names es es' →
      anyMemberReadsRow es = false → es' = es
  | _, _, .nil, _ => rfl
  | _, _, .cons name h hes, hrow => by
    obtain ⟨hrowe, hrowes⟩ := Bool.or_eq_false_iff.mp hrow
    rw [h.eq_of_not_readsRow hrowe, hes.eq_of_not_anyMemberReadsRow hrowes]

theorem RenamesBranches.eq_of_not_anyBranchReadsRow {names : List (String × String)} :
    {bs bs' : List (Expr × Expr)} → RenamesBranches names bs bs' →
      anyBranchReadsRow bs = false → bs' = bs
  | _, _, .nil, _ => rfl
  | _, _, .cons ht hv hbs, hrow => by
    obtain ⟨hrowtv, hrowbs⟩ := Bool.or_eq_false_iff.mp hrow
    obtain ⟨hrowt, hrowv⟩ := Bool.or_eq_false_iff.mp hrowtv
    rw [ht.eq_of_not_readsRow hrowt, hv.eq_of_not_readsRow hrowv,
      hbs.eq_of_not_anyBranchReadsRow hrowbs]

end

/-- Renaming does not change whether an expression becomes one parameter. -/
theorem Renames.isParameter_eq {names : List (String × String)} {e e' : Expr}
    (h : Renames names e e') : e'.isParameter = e.isParameter := by
  have hrow := h.readsRow_eq
  cases h with
  | object | tuple | array | aggregate | select | toList | one | rowNumber | method => rfl
  | _ => exact congrArg not hrow

end Expr

end NestedQuery
