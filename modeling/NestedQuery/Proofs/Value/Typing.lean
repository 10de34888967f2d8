import NestedQuery.Graph.Convert
import NestedQuery.Mapping.Operand
import NestedQuery.Proofs.Number.Finite

/-!
# Values of a type

A type takes values of its own kind, and some of other kinds that stand for them (`Value.hasType`).
Every such value that a document can hold converts to the type (`Value.exists_convert_eq_ok`), and
the operators keep to the types that are inferred for their results: `Value.hasType_not`,
`Value.hasType_negate`, `Value.hasType_call?`, `Value.hasType_boolean` and
`Value.hasType_arithmetic`. Arithmetic does so with one exception: an operand of an unknown type
gives way to the other one's (`ValueType.widen`), and a real behind it makes a real of what is typed
as an integer or a truth value (`ValueType.presumesIntegers`).
-/

namespace NestedQuery

namespace ValueType

/-- Whether arithmetic on the two types is typed as an integer or a truth value although one of the
types is unknown. -/
def presumesIntegers (t t' : ValueType) : Bool :=
  (t == any || t' == any) && (t.widen t' == integer || t.widen t' == bool)

theorem widen_comm (t t' : ValueType) : t.widen t' = t'.widen t := by
  cases t <;> cases t' <;> rfl

theorem presumesIntegers_comm (t t' : ValueType) :
    t.presumesIntegers t' = t'.presumesIntegers t := by
  cases t <;> cases t' <;> rfl

end ValueType

namespace Value

/-- Whether a type takes the value. Integers and truth values stand for each other, an integer for
a real, and texts and the bytes that spell them for each other. A real is no integer, even if it is
integral: what is computed from it need not be. -/
def hasType : Value → ValueType → Bool
  | null, _ | _, .any => true
  | integer _, .integer | integer _, .real | integer _, .bool => true
  | bool _, .bool | bool _, .integer => true
  | real _, .real => true
  | text _, .text | text _, .bytes | blob _, .bytes => true
  | blob bytes, .text => (textOfBytes? bytes).isSome
  | _, _ => false

/-- Whether the value is no list, no infinity and not a not-a-number. -/
def isPlain : Value → Bool
  | list _ => false
  | real x => Number.isFiniteFloat x
  | _ => true

/-- Whether the value is a real. -/
def isReal : Value → Bool
  | real _ => true
  | _ => false

variable {t t' : ValueType} {v w u : Value}

theorem hasType_any (v : Value) : v.hasType .any = true := by
  cases v <;> rfl

/-- A value has its natural type. -/
theorem hasType_type (v : Value) : v.hasType v.type = true := by
  cases v <;> rfl

/-! ### Conversion -/

theorem realDocument_eq_ok {x : Float} (h : Number.isFiniteFloat x = true) :
    realDocument x = .ok (.float x) :=
  if_pos h

/-- **A plain value of a type converts to it.** -/
theorem exists_convert_eq_ok (h : v.hasType t = true) (hv : v.isPlain = true) :
    ∃ d, convert t v = .ok d := by
  cases v with
  | null => exact ⟨_, by cases t <;> rfl⟩
  | integer i =>
    cases t
    case real =>
      exact ⟨_, congrArg (direct <$> ·) (realDocument_eq_ok (Number.isFiniteFloat_floatOfInt64 i))⟩
    all_goals first
      | exact ⟨_, rfl⟩
      | cases h
  | real x =>
    cases t
    case any | real => exact ⟨_, congrArg (direct <$> ·) (realDocument_eq_ok hv)⟩
    all_goals cases h
  | text s =>
    cases t
    all_goals first
      | exact ⟨_, rfl⟩
      | cases h
  | blob bytes =>
    cases t
    case text =>
      obtain ⟨s, hs⟩ := Option.isSome_iff_exists.mp h
      exact ⟨⟨.text s, true⟩, by rw [convert, hs]⟩
    all_goals first
      | exact ⟨_, rfl⟩
      | cases h
  | bool b =>
    cases t
    all_goals first
      | exact ⟨_, rfl⟩
      | cases h
  | list items => cases hv

/-! ### Operators -/

/-- A type that takes an integer takes every integer. -/
theorem hasType_integer {i : Int64} (h : (integer i).hasType t = true) (j : Int64) :
    (integer j).hasType t = true := by
  cases t <;> first | rfl | cases h

/-- A type that takes a real takes every real. -/
theorem hasType_real {x : Float} (h : (real x).hasType t = true) (y : Float) :
    (real y).hasType t = true := by
  cases t <;> first | rfl | cases h

/-- The negation of a truth value is one. -/
theorem hasType_not (h : unary? .not v = some u) : u.hasType .bool = true := by
  cases v <;> cases h <;> rfl

theorem hasType_negate (hv : v.hasType t = true) (h : unary? .negate v = some u) :
    u.hasType t = true := by
  cases v
  case null =>
    cases h
    exact hv
  case integer i =>
    obtain ⟨n, -, rfl⟩ := Option.map_eq_some_iff.mp h
    exact hasType_integer hv n
  case real x =>
    cases h
    exact hasType_real hv _
  all_goals cases h

theorem hasType_call? {f : Function} (hv : v.hasType t = true) (h : call? f v = some u) :
    u.hasType (f.type t) = true := by
  cases f
  case upper | lower | length => cases v <;> cases h <;> rfl
  case abs =>
    cases v
    case null =>
      cases h
      exact hv
    case integer i =>
      obtain ⟨n, -, rfl⟩ := Option.map_eq_some_iff.mp h
      exact hasType_integer hv n
    case real x =>
      cases h
      exact hasType_real hv _
    all_goals cases h

/-- Arithmetic joins texts, stays with integers, or computes a real from a real and a number. -/
theorem arithmetic?_eq_some {op : BinaryOp} (h : arithmetic? op v w = some u) :
    (∃ s s' r, v = text s ∧ w = text s' ∧ u = text r) ∨
      (∃ i j k, v = integer i ∧ w = integer j ∧ u = integer k) ∨
      ∃ r, u = real r ∧ ((∃ x, v = real x ∧ w.toReal?.isSome = true) ∨
        ∃ i y, v = integer i ∧ w = real y) := by
  unfold arithmetic? at h
  split at h
  · rename_i s s'
    split at h
    · cases h
      exact .inl ⟨s, s', _, rfl, rfl, rfl⟩
    · cases h
  · rename_i i j
    obtain ⟨k, -, rfl⟩ := Option.map_eq_some_iff.mp h
    exact .inr (.inl ⟨i, j, k, rfl, rfl, rfl⟩)
  · -- Two integers were the case before, so one of the numbers is a real.
    rename_i hintegers
    obtain ⟨x, hx, h⟩ := Option.bind_eq_some_iff.mp h
    obtain ⟨y, hy, h⟩ := Option.bind_eq_some_iff.mp h
    obtain ⟨r, -, rfl⟩ := Option.map_eq_some_iff.mp h
    refine .inr (.inr ⟨r, rfl, ?_⟩)
    cases v with
    | real x' => exact .inl ⟨x', rfl, by rw [hy]; rfl⟩
    | integer i =>
      cases w with
      | real y' => exact .inr ⟨i, y', rfl, rfl⟩
      | integer j => exact (hintegers i j rfl rfl).elim
      | _ => cases hy
    | _ => cases hx

/-- Comparisons and the operators on truth values yield truth values. -/
theorem hasType_boolean {op : BinaryOp} (hop : op.isBoolean = true)
    (h : binary? op v w = some u) : u.hasType .bool = true := by
  unfold binary? at h
  split at h
  · cases h
    rfl
  split at h
  · obtain ⟨o, -, rfl⟩ := Option.map_eq_some_iff.mp h
    rfl
  rename_i hcomparison
  cases op
  case and | or =>
    cases h
    rfl
  case isIn =>
    -- Membership in a list is no operation on two values.
    cases v <;> cases w <;> cases h
  all_goals first
    | exact absurd rfl hcomparison
    | cases hop

/-- An operator that is not boolean is arithmetic, except that null makes its result null. -/
theorem binary?_eq_some_of_not_isBoolean {op : BinaryOp} (hop : op.isBoolean = false)
    (h : binary? op v w = some u) : u = null ∨ arithmetic? op v w = some u := by
  unfold binary? at h
  split at h
  · cases h
    exact .inl rfl
  cases op
  case add | sub | mul | div | mod | comma => exact .inr h
  all_goals cases hop

theorem hasType_widen_text {s s' : String} (hv : (text s).hasType t = true)
    (hw : (text s').hasType t' = true) (r : String) : (text r).hasType (t.widen t') = true := by
  cases t <;> cases t' <;> first | rfl | (cases hv; done) | cases hw

theorem hasType_widen_integer {i j : Int64} (hv : (integer i).hasType t = true)
    (hw : (integer j).hasType t' = true) (k : Int64) :
    (integer k).hasType (t.widen t') = true := by
  cases t <;> cases t' <;> first | rfl | (cases hv; done) | cases hw

/-- What is computed from a real and a number is typed as a real or left unknown, unless only that
the other one is an integer is known. -/
theorem hasType_widen_real {x : Float} (hv : (real x).hasType t = true)
    (hw : w.hasType t' = true) (hnumber : w.toReal?.isSome = true)
    (hpresumes : t.presumesIntegers t' = false) (r : Float) :
    (real r).hasType (t.widen t') = true := by
  cases w with
  | integer | real => cases t <;> cases t' <;> first
    | rfl
    | (cases hv; done)
    | (cases hw; done)
    | cases hpresumes
  | _ => cases hnumber

/-- **Arithmetic keeps to the wider type**, unless it presumes integers and computes a real. -/
theorem hasType_arithmetic {op : BinaryOp} (hop : op.isBoolean = false)
    (hv : v.hasType t = true) (hw : w.hasType t' = true)
    (hreal : t.presumesIntegers t' = true → u.isReal = false)
    (h : binary? op v w = some u) : u.hasType (t.widen t') = true := by
  obtain rfl | h := binary?_eq_some_of_not_isBoolean hop h
  · rfl
  obtain ⟨s, s', r, rfl, rfl, rfl⟩ | ⟨i, j, k, rfl, rfl, rfl⟩ | ⟨r, rfl, hreals⟩ :=
    arithmetic?_eq_some h
  · exact hasType_widen_text hv hw r
  · exact hasType_widen_integer hv hw k
  · have hpresumes : t.presumesIntegers t' = false :=
      Bool.eq_false_iff.mpr fun hp => Bool.noConfusion (hreal hp)
    obtain ⟨x, rfl, hnumber⟩ | ⟨i, y, rfl, rfl⟩ := hreals
    · exact hasType_widen_real hv hw hnumber hpresumes r
    · rw [ValueType.widen_comm]
      exact hasType_widen_real hw hv rfl (ValueType.presumesIntegers_comm t' t ▸ hpresumes) r

end Value

end NestedQuery
