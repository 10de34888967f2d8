/-!
# Runs of code points

A character property is a sorted list of `CodeRun`s: intervals of code points, taken in steps of
one, or of two where capitals and small letters alternate. `inRuns` tests a character against
such a list; `CodeRun.contains_iff` says what one run holds.
-/

namespace NestedQuery.Text

/-- The code points `first`, `first + step`, `first + 2 * step`, … up to `last`. -/
structure CodeRun where
  /-- The least code point of the run. -/
  first : Nat
  /-- The greatest code point of the run. -/
  last : Nat
  /-- The distance between neighbours. -/
  step : Nat
  deriving Repr, DecidableEq

namespace CodeRun

/-- Whether the code point `c` belongs to the run. -/
def contains (r : CodeRun) (c : Nat) : Bool :=
  r.first ≤ c && c ≤ r.last && (c - r.first) % r.step == 0

theorem contains_iff (r : CodeRun) (c : Nat) :
    r.contains c = true ↔ r.first ≤ c ∧ c ≤ r.last ∧ (c - r.first) % r.step = 0 := by
  simp [contains, and_assoc]

end CodeRun

/-- Whether `c` belongs to one of the runs. The runs are sorted and apart, so only the first one
that does not end before `c` can hold it. -/
def inRuns (runs : List CodeRun) (c : Char) : Bool :=
  match runs.find? fun r => c.toNat ≤ r.last with
  | some r => r.contains c.toNat
  | none => false

end NestedQuery.Text
