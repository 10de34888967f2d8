import NestedQuery.Number.Binary

/-!
# Integers of 64 bits

Arithmetic on `Int64` cells is done on the integers they stand for; `int64?` brings a result back
if it fits. `int64?_eq_some_iff` says when it does.
-/

namespace NestedQuery.Number

/-- Whether an integer has a 64-bit form. -/
def FitsInt64 (i : Int) : Prop :=
  -9223372036854775808 ≤ i ∧ i ≤ 9223372036854775807

instance (i : Int) : Decidable (FitsInt64 i) :=
  inferInstanceAs (Decidable (_ ∧ _))

/-- The 64-bit form of an integer, if it has one. -/
def int64? (i : Int) : Option Int64 :=
  if FitsInt64 i then some (Int64.ofInt i) else none

theorem fitsInt64_toInt (n : Int64) : FitsInt64 n.toInt := by
  have lower := n.le_toInt
  have upper := n.toInt_lt
  unfold FitsInt64
  omega

theorem int64?_eq_some_iff (i : Int) (n : Int64) : int64? i = some n ↔ n.toInt = i := by
  unfold int64?
  constructor
  · intro h
    by_cases fits : FitsInt64 i
    · rw [if_pos fits] at h
      rw [← Option.some.inj h]
      exact Int64.toInt_ofInt_of_le fits.1 (Int.lt_add_one_of_le fits.2)
    · simp [fits] at h
  · rintro rfl
    simp [fitsInt64_toInt]

/-- The float nearest to a 64-bit integer. -/
def floatOfInt64 (n : Int64) : Float :=
  floatOfInt n.toInt

end NestedQuery.Number
