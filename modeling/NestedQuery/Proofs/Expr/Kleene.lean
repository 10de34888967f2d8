import NestedQuery.Expr.Evaluate

/-!
# Truth values and null

For a database, null is a truth value that is not known, and its `AND`, `OR` and `NOT` are those of
Kleene's logic: `null OR true` is true, because it is true whatever null stands for. Evaluation has
another rule: an operator with a null operand yields null. So `Expr.evaluate` finds null as soon as
one leaf of a boolean expression is null, and agrees with Kleene's logic just where that finds
null, too, or where no leaf is null (`evaluate_of_kleene`).
-/

namespace NestedQuery

/-- A truth value, or none that is known. -/
abbrev Truth := Option Bool

namespace Truth

/-- Negation: unknown if the operand is. -/
def not : Truth → Truth :=
  Option.map Bool.not

/-- Conjunction: false if one operand is, whatever the other. -/
def and : Truth → Truth → Truth
  | some false, _ | _, some false => some false
  | some true, u => u
  | none, _ => none

/-- Disjunction: true if one operand is, whatever the other. -/
def or : Truth → Truth → Truth
  | some true, _ | _, some true => some true
  | some false, u => u
  | none, _ => none

/-- The value that holds a truth value: null if it is unknown. -/
def value : Truth → Value
  | none => .null
  | some b => .bool b

/-- The document that holds a truth value: null if it is unknown. -/
def document : Truth → Document
  | none => .null
  | some b => .bool b

theorem some_and_some (b c : Bool) : and (some b) (some c) = some (b && c) := by
  cases b <;> cases c <;> rfl

theorem some_or_some (b c : Bool) : or (some b) (some c) = some (b || c) := by
  cases b <;> cases c <;> rfl

theorem ofDocument_document (t : Truth) : Value.ofDocument t.document = .ok t.value := by
  cases t <;> rfl

end Truth

namespace Expr

/-- A boolean expression: `AND`, `OR` and `NOT` of constants and of members of the arguments, all of
them truth values or null. With it come the truth values of its leaves, from left to right, and its
own in Kleene's logic. -/
inductive Kleene (arguments : Document) : Expr → List Truth → Truth → Prop
  | constant (t : Truth) : Kleene arguments (constant t.value) [t] t
  | member {base : Expr} {name : String} {t : Truth} :
      (member base name).navigate arguments = .ok t.document →
      Kleene arguments (member base name) [t] t
  | not {e : Expr} {leaves : List Truth} {t : Truth} :
      Kleene arguments e leaves t → Kleene arguments (unary .not e) leaves t.not
  | and {e f : Expr} {leaves leaves' : List Truth} {t u : Truth} :
      Kleene arguments e leaves t → Kleene arguments f leaves' u →
      Kleene arguments (binary .and e f) (leaves ++ leaves') (t.and u)
  | or {e f : Expr} {leaves leaves' : List Truth} {t u : Truth} :
      Kleene arguments e leaves t → Kleene arguments f leaves' u →
      Kleene arguments (binary .or e f) (leaves ++ leaves') (t.or u)

variable {arguments : Document} {e : Expr} {leaves : List Truth} {t : Truth}

/-- Without a null among the leaves the truth value is known. -/
theorem Kleene.exists_eq_some (h : Kleene arguments e leaves t) (hleaves : none ∉ leaves) :
    ∃ b, t = some b := by
  induction h with
  | constant t | member =>
    exact Option.ne_none_iff_exists'.mp fun hnone => hleaves (hnone ▸ List.mem_singleton.mpr rfl)
  | not _ ih =>
    obtain ⟨b, rfl⟩ := ih hleaves
    exact ⟨!b, rfl⟩
  | and _ _ ihe ihf =>
    rw [List.mem_append, not_or] at hleaves
    obtain ⟨b, rfl⟩ := ihe hleaves.1
    obtain ⟨c, rfl⟩ := ihf hleaves.2
    exact ⟨b && c, Truth.some_and_some b c⟩
  | or _ _ ihe ihf =>
    rw [List.mem_append, not_or] at hleaves
    obtain ⟨b, rfl⟩ := ihe hleaves.1
    obtain ⟨c, rfl⟩ := ihf hleaves.2
    exact ⟨b || c, Truth.some_or_some b c⟩

theorem binary?_null_left (op : BinaryOp) (v : Value) : Value.binary? op .null v = some .null :=
  rfl

theorem binary?_null_right (op : BinaryOp) (v : Value) : Value.binary? op v .null = some .null := by
  cases v <;> rfl

/-- The value of a boolean expression with these leaves: null if one of them is null. -/
def strict (leaves : List Truth) (t : Truth) : Value :=
  if none ∈ leaves then .null else t.value

theorem strict_of_mem (h : none ∈ leaves) : strict leaves t = .null :=
  if_pos h

theorem strict_of_notMem (h : none ∉ leaves) : strict leaves t = t.value :=
  if_neg h

/-- An operator is strict if it is Kleene's on truth values that are known. -/
theorem binary?_strict {op : BinaryOp} {onTruths : Truth → Truth → Truth} {f : Expr}
    {leaves' : List Truth} {u : Truth}
    (hop : ∀ b c, Value.binary? op (.bool b) (.bool c) = some (onTruths (some b) (some c)).value)
    (he : Kleene arguments e leaves t) (hf : Kleene arguments f leaves' u) :
    Value.binary? op (strict leaves t) (strict leaves' u) =
      some (strict (leaves ++ leaves') (onTruths t u)) := by
  by_cases hleaves : none ∈ leaves
  · rw [strict_of_mem hleaves, strict_of_mem (List.mem_append_left _ hleaves), binary?_null_left]
  · by_cases hleaves' : none ∈ leaves'
    · rw [strict_of_mem hleaves', strict_of_mem (List.mem_append_right _ hleaves'),
        binary?_null_right]
    · obtain ⟨b, rfl⟩ := he.exists_eq_some hleaves
      obtain ⟨c, rfl⟩ := hf.exists_eq_some hleaves'
      have hboth : none ∉ leaves ++ leaves' := by
        rw [List.mem_append, not_or]
        exact ⟨hleaves, hleaves'⟩
      rw [strict_of_notMem hleaves, strict_of_notMem hleaves', strict_of_notMem hboth]
      exact hop b c

theorem evaluate_eq_strict (h : Kleene arguments e leaves t) :
    e.evaluate arguments = .ok (strict leaves t) := by
  induction h with
  | constant t => cases t <;> rfl
  | @member base name t hmember =>
    rw [evaluate, hmember]
    refine (Truth.ofDocument_document t).trans ?_
    cases t <;> rfl
  | @not e leaves t he ih =>
    rw [evaluate, ih]
    -- With an unknown leaf both sides are unknown; without one both are known.
    by_cases hleaves : none ∈ leaves
    · rw [strict_of_mem hleaves, strict_of_mem hleaves]
      rfl
    · obtain ⟨b, rfl⟩ := he.exists_eq_some hleaves
      rw [strict_of_notMem hleaves, strict_of_notMem hleaves]
      rfl
  | and he hf ihe ihf =>
    rw [evaluate, ihe, ihf]
    refine congrArg (orOperandTypes _) (binary?_strict (fun b c => ?_) he hf)
    rw [Truth.some_and_some]
    rfl
  | or he hf ihe ihf =>
    rw [evaluate, ihe, ihf]
    refine congrArg (orOperandTypes _) (binary?_strict (fun b c => ?_) he hf)
    rw [Truth.some_or_some]
    rfl

/-- **Evaluation of boolean expressions is strict.** It finds null if a leaf is null, and the value
of Kleene's logic if none is. So it agrees with Kleene's logic just where that knows no value either
or no leaf is null. -/
theorem evaluate_of_kleene (h : Kleene arguments e leaves t) :
    e.evaluate arguments = .ok (if none ∈ leaves then .null else t.value) ∧
      (e.evaluate arguments = .ok t.value ↔ (none ∈ leaves → t = none)) := by
  have heval := evaluate_eq_strict h
  refine ⟨heval, ?_⟩
  rw [heval, strict, Except.ok.injEq]
  by_cases hleaves : none ∈ leaves
  · rw [if_pos hleaves]
    cases t <;> simp [Truth.value, hleaves]
  · simp [hleaves]

/-- Nothing is known of `args.x` here, and `args.x OR true` is true nevertheless. -/
theorem evaluate_of_kleene_nullOrTrue :
    Kleene (.object [("x", .null)]) (binary .or (member args "x") (constant (.bool true)))
        [none, some true] (some true) ∧
      (binary .or (member args "x") (constant (.bool true))).evaluate (.object [("x", .null)]) =
        .ok .null ∧
      (binary .or (member args "x") (constant (.bool true))).evaluate (.object [("x", .null)]) ≠
        .ok (.bool true) := by
  have hkleene : Kleene (.object [("x", .null)])
      (binary .or (member args "x") (constant (.bool true))) [none, some true] (some true) :=
    .or (.member (t := none) rfl) (.constant (some true))
  obtain ⟨heval, hiff⟩ := evaluate_of_kleene hkleene
  exact ⟨hkleene, heval, fun h => nomatch hiff.mp h (List.mem_cons_self ..)⟩

end Expr

end NestedQuery
