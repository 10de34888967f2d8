/-!
# Powers

The powers of two and of ten, by name: the exponents of binary and decimal numbers are natural
numbers throughout.
-/

namespace NestedQuery.Number

/-- The power of two with an exponent. -/
def twoTo (n : Nat) : Nat :=
  Nat.pow 2 n

/-- The power of ten with an exponent. -/
def tenTo (n : Nat) : Nat :=
  Nat.pow 10 n

theorem twoTo_zero : twoTo 0 = 1 := rfl

theorem twoTo_succ (n : Nat) : twoTo (n + 1) = twoTo n * 2 := rfl

theorem tenTo_zero : tenTo 0 = 1 := rfl

theorem tenTo_succ (n : Nat) : tenTo (n + 1) = tenTo n * 10 := rfl

end NestedQuery.Number
