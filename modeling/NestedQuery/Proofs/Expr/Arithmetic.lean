import NestedQuery.Expr.Evaluate
import NestedQuery.Proofs.Result

/-!
# Arithmetic on integers

An arithmetic expression (`Expr.IsArithmetic`) is made of integer constants and integer arguments by
the four operations, remainders, negation and absolute values. `Expr.exact` is its value among all
integers, where division cuts towards zero; `Expr.StaysExact` says that this value and all values on
the way to it have a 64-bit form and that nothing is divided by zero.

The main result is `Expr.evaluate_arithmetic`: an expression that stays exact evaluates to its exact
value, and any other one is refused. Only where an argument is above the signed range is a real in
the place of the refusal, because `Value.ofDocument` makes a real of such an argument.
-/

namespace NestedQuery

open Number

/-! ### Exact operations -/

namespace BinaryOp

/-- Whether the operator computes a number from two numbers. -/
def isArithmetic : BinaryOp → Bool
  | add | sub | mul | div | mod => true
  | _ => false

/-- The result among all integers. -/
def exact : BinaryOp → Int → Int → Int
  | add, x, y => x + y
  | sub, x, y => x - y
  | mul, x, y => x * y
  | div, x, y => x.tdiv y
  | mod, x, y => x.tmod y
  | _, _, _ => 0

/-- The result has a 64-bit form, the divisor is not zero, and the quotient behind a remainder has a
64-bit form as well. -/
structure StaysExact (op : BinaryOp) (x y : Int) : Prop where
  fits : FitsInt64 (op.exact x y)
  divisor : op = div ∨ op = mod → y ≠ 0
  quotient : op = mod → FitsInt64 (x.tdiv y)

end BinaryOp

theorem Number.exists_int64? {i : Int} (h : FitsInt64 i) : ∃ n, int64? i = some n :=
  ⟨_, if_pos h⟩

theorem Number.fitsInt64_of_int64? {i : Int} {n : Int64} (h : int64? i = some n) : FitsInt64 i :=
  (int64?_eq_some_iff i n).mp h ▸ fitsInt64_toInt n

namespace Value

theorem integerResult?_eq_some_iff {op : BinaryOp} (hop : op.isArithmetic = true) {x y : Int}
    {n : Int64} :
    integerResult? op x y = some n ↔ op.StaysExact x y ∧ n.toInt = op.exact x y := by
  have hfits : ∀ {z : Int}, n.toInt = z → FitsInt64 z := fun h => h ▸ fitsInt64_toInt n
  cases op with
  | add | sub | mul =>
    rw [integerResult?, int64?_eq_some_iff]
    exact ⟨fun h => ⟨⟨hfits h, by simp, by simp⟩, h⟩, And.right⟩
  | div =>
    rw [integerResult?, Option.ite_none_left_eq_some, int64?_eq_some_iff]
    exact ⟨fun ⟨hy, h⟩ => ⟨⟨hfits h, fun _ => hy, by simp⟩, h⟩,
      fun ⟨hstays, h⟩ => ⟨hstays.divisor (.inl rfl), h⟩⟩
  | mod =>
    rw [integerResult?, Option.ite_none_left_eq_some, Option.bind_eq_some_iff]
    constructor
    · rintro ⟨hy, q, hq, h⟩
      rw [int64?_eq_some_iff] at h
      exact ⟨⟨hfits h, fun _ => hy, fun _ => fitsInt64_of_int64? hq⟩, h⟩
    · rintro ⟨hstays, h⟩
      -- A remainder is refused with its quotient, which overflows for the least number and -1.
      obtain ⟨q, hq⟩ := exists_int64? (hstays.quotient rfl)
      exact ⟨hstays.divisor (.inr rfl), q, hq, (int64?_eq_some_iff _ n).mpr h⟩
  | _ => cases hop

theorem binary?_integers {op : BinaryOp} (hop : op.isArithmetic = true) (i j : Int64) :
    binary? op (integer i) (integer j) = (integerResult? op i.toInt j.toInt).map integer := by
  cases op <;> first | rfl | cases hop

/-- A real on one side makes the result a real, which there always is. -/
theorem exists_binary?_eq_real {op : BinaryOp} (hop : op.isArithmetic = true) {v w : Value}
    {x y : Float} (hv : v.toReal? = some x) (hw : w.toReal? = some y)
    (hreal : v = real x ∨ w = real y) : ∃ z, binary? op v w = some (real z) := by
  cases op with
  | add | sub | mul | div | mod =>
    rcases hreal with rfl | rfl
    · cases w with
      | integer | real => exact ⟨_, rfl⟩
      | _ => cases hw
    · cases v with
      | integer | real => exact ⟨_, rfl⟩
      | _ => cases hv
  | _ => cases hop

end Value

/-! ### Arithmetic expressions -/

namespace Expr

variable {arguments : Document} {e : Expr}

/-- Expressions made of integers by arithmetic. An argument is the document that a chain of members
leads to; the unsigned ones are those above the signed range. -/
inductive IsArithmetic (arguments : Document) : Expr → Prop
  | constant (i : Int64) : IsArithmetic arguments (constant (.integer i))
  | argument {e : Expr} {i : Int64} (h : e.navigate arguments = .ok (.integer i)) :
    IsArithmetic arguments e
  | unsigned {e : Expr} {n : UInt64} (h : e.navigate arguments = .ok (.unsigned n))
    (hn : ¬ FitsInt64 n.toNat) : IsArithmetic arguments e
  | negate {e : Expr} : IsArithmetic arguments e → IsArithmetic arguments (unary .negate e)
  | abs {e : Expr} : IsArithmetic arguments e → IsArithmetic arguments (apply .abs e)
  | binary {op : BinaryOp} {left right : Expr} (hop : op.isArithmetic = true) :
    IsArithmetic arguments left → IsArithmetic arguments right →
      IsArithmetic arguments (binary op left right)

/-- The integer that a document is. -/
def documentInteger : Result Document → Int
  | .ok (.integer i) => i.toInt
  | .ok (.unsigned n) => n.toNat
  | _ => 0

/-- Whether a document is an integer above the signed range. -/
def isUnsigned : Result Document → Bool
  | .ok (.unsigned _) => true
  | _ => false

/-- The value among all integers. -/
def exact (arguments : Document) : Expr → Int
  | constant (.integer i) => i.toInt
  | unary .negate operand => -operand.exact arguments
  | apply .abs operand => (operand.exact arguments).natAbs
  | binary op left right => op.exact (left.exact arguments) (right.exact arguments)
  | e => documentInteger (e.navigate arguments)

/-- Every value on the way has a 64-bit form, and nothing is divided by zero. -/
def StaysExact (arguments : Document) : Expr → Prop
  | unary .negate operand =>
    operand.StaysExact arguments ∧ FitsInt64 (-operand.exact arguments)
  | apply .abs operand =>
    operand.StaysExact arguments ∧ FitsInt64 (operand.exact arguments).natAbs
  | binary op left right =>
    left.StaysExact arguments ∧ right.StaysExact arguments ∧
      op.StaysExact (left.exact arguments) (right.exact arguments)
  | e => FitsInt64 (e.exact arguments)

/-- Whether an argument above the signed range is read. -/
def readsUnsigned (arguments : Document) : Expr → Bool
  | unary _ operand | apply _ operand => operand.readsUnsigned arguments
  | binary _ left right => left.readsUnsigned arguments || right.readsUnsigned arguments
  | e => isUnsigned (e.navigate arguments)

/-- Every part that reads no argument above the signed range stays exact. -/
def SignedPartsStayExact (arguments : Document) : Expr → Prop
  | unary op operand =>
    operand.SignedPartsStayExact arguments ∧
      (operand.readsUnsigned arguments = false → (unary op operand).StaysExact arguments)
  | apply function operand =>
    operand.SignedPartsStayExact arguments ∧
      (operand.readsUnsigned arguments = false → (apply function operand).StaysExact arguments)
  | binary op left right =>
    left.SignedPartsStayExact arguments ∧ right.SignedPartsStayExact arguments ∧
      ((binary op left right).readsUnsigned arguments = false →
        (binary op left right).StaysExact arguments)
  | _ => True

/-! ### Arguments -/

section

variable {d : Document}

theorem evaluate_of_navigate (h : e.navigate arguments = .ok d) :
    e.evaluate arguments = Value.ofDocument d := by
  cases e with
  | args =>
    obtain rfl := Except.ok.inj h
    rfl
  | member base name =>
    rw [evaluate, h]
    rfl
  | _ => cases h

theorem exact_of_navigate (h : e.navigate arguments = .ok d) :
    e.exact arguments = documentInteger (.ok d) := by
  rw [← h]
  cases e with
  | args | member => rfl
  | _ => cases h

theorem staysExact_of_navigate (h : e.navigate arguments = .ok d) :
    e.StaysExact arguments ↔ FitsInt64 (documentInteger (.ok d)) := by
  rw [← exact_of_navigate h]
  cases e with
  | args | member => exact Iff.rfl
  | _ => cases h

theorem readsUnsigned_of_navigate (h : e.navigate arguments = .ok d) :
    e.readsUnsigned arguments = isUnsigned (.ok d) := by
  rw [← h]
  cases e with
  | args | member => rfl
  | _ => cases h

theorem signedPartsStayExact_of_navigate (h : e.navigate arguments = .ok d) :
    e.SignedPartsStayExact arguments := by
  cases e with
  | args | member => trivial
  | _ => cases h

end

/-! ### Evaluation -/

/-- An expression stays exact if it reads no argument above the signed range and all of its parts
stay exact. -/
theorem staysExact_iff (h : e.IsArithmetic arguments) :
    e.StaysExact arguments ↔
      e.readsUnsigned arguments = false ∧ e.SignedPartsStayExact arguments := by
  induction h with
  | constant i => exact iff_of_true (fitsInt64_toInt i) ⟨rfl, trivial⟩
  | argument h =>
    rw [staysExact_of_navigate h, readsUnsigned_of_navigate h]
    exact iff_of_true (fitsInt64_toInt _) ⟨rfl, signedPartsStayExact_of_navigate h⟩
  | @unsigned _ n h hn =>
    rw [staysExact_of_navigate h, readsUnsigned_of_navigate h]
    -- An argument above the signed range is no signed integer of 64 bits.
    exact iff_of_false hn (fun hnone => nomatch hnone.1)
  | negate _ ih | abs _ ih =>
    constructor
    · intro hstays
      obtain ⟨hnone, hparts⟩ := ih.mp hstays.1
      exact ⟨hnone, hparts, fun _ => hstays⟩
    · rintro ⟨hnone, -, hself⟩
      exact hself hnone
  | binary _ _ _ ihl ihr =>
    constructor
    · intro hstays
      obtain ⟨hlnone, hlparts⟩ := ihl.mp hstays.1
      obtain ⟨hrnone, hrparts⟩ := ihr.mp hstays.2.1
      exact ⟨Bool.or_eq_false_iff.mpr ⟨hlnone, hrnone⟩, hlparts, hrparts, fun _ => hstays⟩
    · rintro ⟨hnone, -, -, hself⟩
      exact hself hnone

/-- What evaluation comes to: the exact value, a real, or a refusal. -/
inductive Outcome (arguments : Document) (e : Expr) : Prop
  | integer (i : Int64) (h : e.evaluate arguments = .ok (.integer i))
    (hi : i.toInt = e.exact arguments) (hstays : e.StaysExact arguments)
  | real (x : Float) (h : e.evaluate arguments = .ok (.real x))
    (hreads : e.readsUnsigned arguments = true) (hparts : e.SignedPartsStayExact arguments)
  | refused (subject : String)
    (h : e.evaluate arguments = .error (.unbindable (.operandTypes subject)))
    (hparts : ¬ e.SignedPartsStayExact arguments)

section

variable {whole operand left right : Expr}

/-- An operation on one number: among all integers it is `onInts`, its result is refused if it has
no 64-bit form, and of a real it makes a real. -/
theorem Outcome.ofOperand {onValues : Value → Option Value} (onInts : Int → Int)
    (heval : whole.evaluate arguments =
      operand.evaluate arguments >>= fun v => whole.orOperandTypes (onValues v))
    (hinteger : ∀ i : Int64, onValues (.integer i) = (int64? (onInts i.toInt)).map .integer)
    (hreal : ∀ x, ∃ y, onValues (.real x) = some (.real y))
    (hexact : whole.exact arguments = onInts (operand.exact arguments))
    (hstays : whole.StaysExact arguments ↔
      operand.StaysExact arguments ∧ FitsInt64 (onInts (operand.exact arguments)))
    (hreads : whole.readsUnsigned arguments = operand.readsUnsigned arguments)
    (hparts : whole.SignedPartsStayExact arguments ↔ operand.SignedPartsStayExact arguments ∧
      (operand.readsUnsigned arguments = false → whole.StaysExact arguments))
    (harith : operand.IsArithmetic arguments) (h : Outcome arguments operand) :
    Outcome arguments whole := by
  cases h with
  | integer i hi hvalue hoperand =>
    have heval : whole.evaluate arguments =
        whole.orOperandTypes ((int64? (onInts i.toInt)).map .integer) := by
      rw [heval, hi, ← hinteger]
      rfl
    rw [hvalue] at heval
    -- The operand is exact, so the whole is refused just if its result has no 64-bit form.
    by_cases hfits : FitsInt64 (onInts (operand.exact arguments))
    · obtain ⟨n, hn⟩ := exists_int64? hfits
      rw [hn] at heval
      exact .integer n heval (hexact ▸ (int64?_eq_some_iff _ n).mp hn)
        (hstays.mpr ⟨hoperand, hfits⟩)
    · rw [int64?, if_neg hfits] at heval
      refine .refused whole.text heval fun hwhole => hfits ?_
      exact (hstays.mp ((hparts.mp hwhole).2 ((staysExact_iff harith).mp hoperand).1)).2
  | real x hx hoperand hoperandParts =>
    obtain ⟨y, hy⟩ := hreal x
    refine .real y ?_ (hreads ▸ hoperand) (hparts.mpr ⟨hoperandParts, fun hnone => ?_⟩)
    · rw [heval, hx]
      show whole.orOperandTypes (onValues (.real x)) = _
      rw [hy]
      rfl
    · -- An operand that is a real has read an argument above the signed range.
      rw [hoperand] at hnone
      cases hnone
  | refused subject hsubject hoperandParts =>
    refine .refused subject ?_ fun hwhole => hoperandParts (hparts.mp hwhole).1
    rw [heval, hsubject]
    rfl

/-- A real on one side of an operation makes it a real. -/
theorem Outcome.ofReal {op : BinaryOp} (hop : op.isArithmetic = true) {v w : Value} {x y : Float}
    (hl : left.evaluate arguments = .ok v) (hr : right.evaluate arguments = .ok w)
    (hv : v.toReal? = some x) (hw : w.toReal? = some y) (hreal : v = .real x ∨ w = .real y)
    (hreads : (binary op left right).readsUnsigned arguments = true)
    (hlparts : left.SignedPartsStayExact arguments)
    (hrparts : right.SignedPartsStayExact arguments) :
    Outcome arguments (binary op left right) := by
  obtain ⟨z, hz⟩ := Value.exists_binary?_eq_real hop hv hw hreal
  refine .real z ?_ hreads ⟨hlparts, hrparts, fun hnone => ?_⟩
  · rw [evaluate, hl, hr]
    show orOperandTypes _ (Value.binary? op v w) = _
    rw [hz]
    rfl
  · rw [hreads] at hnone
    cases hnone

/-- An operation on two integers. -/
theorem Outcome.ofIntegers {op : BinaryOp} (hop : op.isArithmetic = true) {i j : Int64}
    (hl : left.evaluate arguments = .ok (.integer i)) (hi : i.toInt = left.exact arguments)
    (hr : right.evaluate arguments = .ok (.integer j)) (hj : j.toInt = right.exact arguments)
    (hlstays : left.StaysExact arguments) (hrstays : right.StaysExact arguments)
    (hnone : (binary op left right).readsUnsigned arguments = false) :
    Outcome arguments (binary op left right) := by
  have heval : (binary op left right).evaluate arguments = (binary op left right).orOperandTypes
      ((Value.integerResult? op (left.exact arguments) (right.exact arguments)).map .integer) := by
    rw [evaluate, hl, hr, ← hi, ← hj, ← Value.binary?_integers hop]
    rfl
  cases hresult : Value.integerResult? op (left.exact arguments) (right.exact arguments) with
  | some n =>
    rw [hresult] at heval
    obtain ⟨hstays, hn⟩ := (Value.integerResult?_eq_some_iff hop).mp hresult
    exact .integer n heval hn ⟨hlstays, hrstays, hstays⟩
  | none =>
    rw [hresult] at heval
    refine .refused (binary op left right).text heval fun hparts => ?_
    have hstays := (hparts.2.2 hnone).2.2
    obtain ⟨n, hn⟩ := exists_int64? hstays.fits
    -- If all parts stayed exact, the operation would have a result.
    have hsome := (Value.integerResult?_eq_some_iff hop).mpr
      ⟨hstays, (int64?_eq_some_iff _ n).mp hn⟩
    rw [hresult] at hsome
    cases hsome

theorem Outcome.binary {op : BinaryOp} (hop : op.isArithmetic = true)
    (hlarith : left.IsArithmetic arguments) (hrarith : right.IsArithmetic arguments)
    (hl : Outcome arguments left) (hr : Outcome arguments right) :
    Outcome arguments (binary op left right) := by
  have hrefused : ∀ {v : Value} {subject : String}, left.evaluate arguments = .ok v →
      right.evaluate arguments = .error (.unbindable (.operandTypes subject)) →
      (Expr.binary op left right).evaluate arguments =
        .error (.unbindable (.operandTypes subject)) := by
    intro v subject hl hr
    rw [evaluate, hl, hr]
    rfl
  -- The left operand decides first; with a real on either side the result is one.
  cases hl with
  | refused subject hl hlparts =>
    refine .refused subject ?_ fun hparts => hlparts hparts.1
    rw [evaluate, hl]
    rfl
  | integer i hl hi hlstays =>
    obtain ⟨hlnone, hlparts⟩ := (staysExact_iff hlarith).mp hlstays
    cases hr with
    | refused subject hr hrparts =>
      exact .refused subject (hrefused hl hr) fun hparts => hrparts hparts.2.1
    | integer j hr hj hrstays =>
      exact .ofIntegers hop hl hi hr hj hlstays hrstays
        (Bool.or_eq_false_iff.mpr ⟨hlnone, ((staysExact_iff hrarith).mp hrstays).1⟩)
    | real y hr hreads hrparts =>
      exact .ofReal hop hl hr rfl rfl (.inr rfl) (Bool.or_eq_true_iff.mpr (.inr hreads)) hlparts
        hrparts
  | real x hl hreads hlparts =>
    have hreads : (Expr.binary op left right).readsUnsigned arguments = true :=
      Bool.or_eq_true_iff.mpr (.inl hreads)
    cases hr with
    | refused subject hr hrparts =>
      exact .refused subject (hrefused hl hr) fun hparts => hrparts hparts.2.1
    | integer j hr hj hrstays =>
      exact .ofReal hop hl hr rfl rfl (.inl rfl) hreads hlparts
        ((staysExact_iff hrarith).mp hrstays).2
    | real y hr _ hrparts =>
      exact .ofReal hop hl hr rfl rfl (.inl rfl) hreads hlparts hrparts

end

/-- By induction over the expression. -/
theorem IsArithmetic.outcome (h : e.IsArithmetic arguments) : Outcome arguments e := by
  induction h with
  | constant i => exact .integer i rfl rfl (fitsInt64_toInt i)
  | @argument _ i h =>
    exact .integer i (evaluate_of_navigate h) (exact_of_navigate h).symm
      ((staysExact_of_navigate h).mpr (fitsInt64_toInt i))
  | unsigned h hn =>
    exact .real _ (evaluate_of_navigate h) (readsUnsigned_of_navigate h)
      (signedPartsStayExact_of_navigate h)
  | negate harith ih =>
    exact .ofOperand (fun i => -i) rfl (fun _ => rfl) (fun x => ⟨-x, rfl⟩) rfl Iff.rfl rfl Iff.rfl
      harith ih
  | abs harith ih =>
    exact .ofOperand (fun i => i.natAbs) rfl (fun _ => rfl) (fun x => ⟨x.abs, rfl⟩) rfl Iff.rfl rfl
      Iff.rfl harith ih
  | binary hop hlarith hrarith ihl ihr => exact .binary hop hlarith hrarith ihl ihr

/-- **Arithmetic on integers is exact or refused**, as long as no argument is above the signed
range: an expression that stays exact evaluates to its exact value, and any other one is refused for
its operands. An expression that reads an argument above the signed range never stays exact. It is
refused just if some part without such an argument does not stay exact, and comes to a real
otherwise. -/
theorem evaluate_arithmetic (h : e.IsArithmetic arguments) :
    (e.StaysExact arguments →
      ∃ i, e.evaluate arguments = .ok (.integer i) ∧ i.toInt = e.exact arguments) ∧
    (¬ e.StaysExact arguments →
      ((∃ subject, e.evaluate arguments = .error (.unbindable (.operandTypes subject))) ↔
        ¬ (e.readsUnsigned arguments = true ∧ e.SignedPartsStayExact arguments)) ∧
      ((∃ x, e.evaluate arguments = .ok (.real x)) ↔
        e.readsUnsigned arguments = true ∧ e.SignedPartsStayExact arguments)) := by
  have hstays := staysExact_iff h
  cases h.outcome with
  | integer i hi hvalue hexact => exact ⟨fun _ => ⟨i, hi, hvalue⟩, fun hnot => absurd hexact hnot⟩
  | real x hx hreads hparts =>
    refine ⟨fun hexact => ?_, fun _ => ⟨?_, ?_⟩⟩
    · rw [(hstays.mp hexact).1] at hreads
      cases hreads
    · exact iff_of_false (by simp [hx]) (not_not_intro ⟨hreads, hparts⟩)
    · exact iff_of_true ⟨x, hx⟩ ⟨hreads, hparts⟩
  | refused subject hsubject hparts =>
    refine ⟨fun hexact => absurd (hstays.mp hexact).2 hparts, fun _ => ⟨?_, ?_⟩⟩
    · exact iff_of_true ⟨subject, hsubject⟩ fun hboth => hparts hboth.2
    · exact iff_of_false (by simp [hsubject]) fun hboth => hparts hboth.2

/-- Two arguments, one of them the first integer above the signed range. -/
def sevenAndLarge : Document :=
  .object [("m", .integer 7), ("n", .unsigned 9223372036854775808)]

/-- The remainder of the negated argument is cut towards zero; one more than the large argument is a
real. -/
theorem evaluate_arithmetic_sevenAndLarge :
    (binary .mod (unary .negate (member args "m")) (constant (.integer 2))).IsArithmetic
        sevenAndLarge ∧
      (∃ i, (binary .mod (unary .negate (member args "m")) (constant (.integer 2))).evaluate
        sevenAndLarge = .ok (.integer i) ∧ i.toInt = -1) ∧
      (binary .add (member args "n") (constant (.integer 1))).IsArithmetic sevenAndLarge ∧
      ∃ x, (binary .add (member args "n") (constant (.integer 1))).evaluate sevenAndLarge =
        .ok (.real x) := by
  have hm : (member args "m").navigate sevenAndLarge = .ok (.integer 7) := rfl
  have hn : (member args "n").navigate sevenAndLarge = .ok (.unsigned 9223372036854775808) := rfl
  have hmod : (binary .mod (unary .negate (member args "m")) (constant (.integer 2))).IsArithmetic
      sevenAndLarge := .binary rfl (.negate (.argument hm)) (.constant 2)
  have hadd : (binary .add (member args "n") (constant (.integer 1))).IsArithmetic
      sevenAndLarge := .binary rfl (.unsigned hn (by decide)) (.constant 1)
  refine ⟨hmod, ?_, hadd, ?_⟩
  · obtain ⟨i, hi, hvalue⟩ := (evaluate_arithmetic hmod).1
      ⟨⟨(staysExact_of_navigate hm).mpr (fitsInt64_toInt 7), by decide⟩, fitsInt64_toInt 2,
        ⟨by decide, fun _ => by decide, fun _ => by decide⟩⟩
    exact ⟨i, hi, hvalue⟩
  · have hlarge : ¬ (binary .add (member args "n") (constant (.integer 1))).StaysExact
        sevenAndLarge := fun hstays =>
      absurd ((staysExact_of_navigate hn).mp hstays.1) (by decide)
    exact ((evaluate_arithmetic hadd).2 hlarge).2.mpr
      ⟨rfl, trivial, trivial, fun hnone => nomatch hnone⟩

end Expr

end NestedQuery
