import Mathlib
import NestedQuery.Number.Integer

/-!
# Integers as finite floats

The float nearest to a 64-bit integer is finite (`isFiniteFloat_floatOfInt64`): its magnitude is at
most a power of two whose pattern is far below that of an infinity.
-/

namespace NestedQuery.Number

open Float.Model.UnpackedFloat (isNaNBits pack_unpack unpackExponent)

/-- The exponent field of a bit pattern. -/
def exponentField (bits : Nat) : Nat :=
  bits / twoTo binary64.fractionBits % twoTo binary64.exponentBits

/-- A float is finite if its exponent field is not that of an infinity. -/
theorem isFiniteFloat_of_exponentField_ne {x : Float}
    (h : exponentField x.toBits.toNat ≠ binary64.topExponent) : isFiniteFloat x = true := by
  have hfinite : ∃ negative m e, decodeFloat x = .finite negative m e := by
    unfold exponentField at h
    unfold decodeFloat Format.decode
    dsimp only
    rw [if_neg h]
    split
    · exact ⟨_, _, _, rfl⟩
    · exact ⟨_, _, _, rfl⟩
  obtain ⟨negative, m, e, hx⟩ := hfinite
  rw [isFiniteFloat, hx]

/-! ### Bit patterns -/

theorem toNat_unpackExponent (b : BitVec Float.Model.Format.binary64.numBits) :
    (unpackExponent b).toNat = exponentField b.toNat := by
  change (b.toNat >>> 52) % 2 ^ 11 = b.toNat / 2 ^ 52 % 2 ^ 11
  rw [Nat.shiftRight_eq_div_pow]

/-- A finite pattern is kept where it is read as a float. -/
theorem toBits_ofBits {b : UInt64} (h : exponentField b.toNat ≠ 2047) :
    (Float.ofBits b).toBits = b := by
  have hfield : (@unpackExponent .binary64 b.toBitVec).toNat ≠ 2047 := by
    rw [toNat_unpackExponent]
    exact h
  have hnumber : ¬ @isNaNBits .binary64 b.toBitVec = true := fun hnan => by
    rw [(of_decide_eq_true hnan).1] at hfield
    exact hfield rfl
  exact UInt64.toBitVec_inj.mp ((pack_unpack _).trans (if_neg hnumber))

/-! ### Magnitudes -/

theorem roundShift_le (m shift : Nat) : Format.roundShift m shift ≤ m / twoTo shift + 1 := by
  unfold Format.roundShift
  dsimp only
  split <;> omega

/-- A mantissa that is moved to the last place of the format has at most one bit more than its
fraction. -/
theorem mul_twoTo_lt {m : Nat} (hm : m ≠ 0) (h : m.log2 ≤ 52) :
    m * twoTo (52 - m.log2) < twoTo 53 := by
  calc m * twoTo (52 - m.log2) < 2 ^ (m.log2 + 1) * 2 ^ (52 - m.log2) :=
        Nat.mul_lt_mul_of_pos_right ((Nat.log2_lt hm).mp (Nat.lt_succ_self _))
          (Nat.two_pow_pos _)
    _ = twoTo 53 := by
        rw [← Nat.pow_add, show m.log2 + 1 + (52 - m.log2) = 53 by omega]
        rfl

theorem roundShift_le_twoTo {m : Nat} (hm : m ≠ 0) (h : 52 < m.log2) :
    Format.roundShift m (m.log2 - 52) ≤ twoTo 53 := by
  have hm : m < 2 ^ 53 * 2 ^ (m.log2 - 52) := by
    rw [← Nat.pow_add, show 53 + (m.log2 - 52) = m.log2 + 1 by omega]
    exact (Nat.log2_lt hm).mp (Nat.lt_succ_self _)
  exact (roundShift_le _ _).trans (Nat.div_lt_of_lt_mul (Nat.mul_comm .. ▸ hm))

/-- The pattern of a mantissa of at most 64 bits is far below that of an infinity. -/
theorem encodeMagnitude_lt {m : Nat} (hm : m < 2 ^ 64) :
    binary64.encodeMagnitude m 0 < 2047 * twoTo 52 := by
  unfold Format.encodeMagnitude
  dsimp only
  split
  · decide
  · rename_i hpos
    have hlog : m.log2 < 64 := (Nat.log2_lt hpos).mpr hm
    have hleast : binary64.leastExponent = -1074 := by decide
    have hplace : max (0 + (m.log2 : Int) - (binary64.fractionBits : Nat)) binary64.leastExponent =
        m.log2 - 52 := by
      rw [hleast]
      change max (0 + (m.log2 : Int) - (52 : Nat)) (-1074) = _
      omega
    rw [hplace, hleast]
    -- The last place is at most the eleventh above one, and the mantissa has one carry at most.
    have hscaled : (if (m.log2 : Int) - 52 ≤ 0 then m * twoTo (0 - ((m.log2 : Int) - 52)).toNat
        else Format.roundShift m ((m.log2 : Int) - 52 - 0).toNat) ≤ twoTo 53 := by
      split
      · rename_i hle
        rw [show (0 - ((m.log2 : Int) - 52)).toNat = 52 - m.log2 by omega]
        exact (mul_twoTo_lt hpos (by omega)).le
      · rename_i hlt
        rw [show ((m.log2 : Int) - 52 - 0).toNat = m.log2 - 52 by omega]
        exact roundShift_le_twoTo hpos (by omega)
    have hplaces : ((m.log2 : Int) - 52 - -1074).toNat * twoTo 52 ≤ 1085 * twoTo 52 :=
      Nat.mul_le_mul_right _ (by omega)
    refine Nat.lt_of_le_of_lt (Nat.min_le_left _ _)
      (Nat.lt_of_le_of_lt (Nat.add_le_add hplaces hscaled) ?_)
    decide

/-! ### Integers -/

/-- The sign does not reach into the exponent field. -/
theorem exponentField_encode_ne {negative : Bool} {m : Nat} (hm : m < 2 ^ 64) :
    exponentField (binary64.encode negative m 0).toUInt64.toNat ≠ 2047 := by
  have hmagnitude : binary64.encodeMagnitude m 0 < 2047 * 2 ^ 52 := encodeMagnitude_lt hm
  have hsign : (if negative then twoTo (binary64.fractionBits + binary64.exponentBits) else 0) =
      (if negative then 2 ^ 63 else 0) := rfl
  rw [Format.encode, hsign]
  change _ % 2 ^ 64 / 2 ^ 52 % 2 ^ 11 ≠ 2047
  split <;> omega

/-- The float nearest to an integer of at most 64 bits is finite. -/
theorem isFiniteFloat_floatOfInt {i : Int} (hi : i.natAbs < 2 ^ 64) :
    isFiniteFloat (floatOfInt i) = true := by
  have hfield : exponentField
      (binary64.encode (decide (i < 0)) i.natAbs 0).toUInt64.toNat ≠ 2047 :=
    exponentField_encode_ne hi
  refine isFiniteFloat_of_exponentField_ne ?_
  rw [floatOfInt, floatOf, Format.pattern, toBits_ofBits hfield]
  exact hfield

/-- **The float nearest to a 64-bit integer is finite.** -/
theorem isFiniteFloat_floatOfInt64 (i : Int64) : isFiniteFloat (floatOfInt64 i) = true := by
  obtain ⟨lower, upper⟩ := fitsInt64_toInt i
  exact isFiniteFloat_floatOfInt (by omega)

end NestedQuery.Number
