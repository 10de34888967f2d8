import Mathlib
import NestedQuery.Graph.Convert
import NestedQuery.Proofs.Number.Finite
import NestedQuery.Value.Wire

/-!
# Reading bytes back

Big-endian bytes stand for a natural number (`ofBigEndian`) and, in two's complement, for an
integer (`ofTwosComplement`); bytes of a text are its code in UTF-8. Each of these is what the
corresponding way of writing undoes.

The last section is about bytes that are read as what they were not written as: the eight bytes of a
float are an integer other than the float itself, unless all of them are zero
(`toInt?_decode_eq_some_iff`).
-/

namespace NestedQuery

open NestedQuery.Number

/-! ### Natural numbers -/

/-- The natural number that bytes stand for, the highest first. -/
def ofBigEndian (bytes : List UInt8) : Nat :=
  bytes.foldl (fun n b => 256 * n + b.toNat) 0

theorem bigEndian_succ (count n : Nat) :
    bigEndian (count + 1) n = (n / twoTo (8 * count)).toUInt8 :: bigEndian count n := by
  rw [bigEndian, List.range_succ, List.reverse_append]
  rfl

@[simp] theorem length_bigEndian (count n : Nat) : (bigEndian count n).length = count := by
  rw [bigEndian, List.length_map, List.length_reverse, List.length_range]

theorem foldl_bytes (bytes : List UInt8) (n : Nat) :
    bytes.foldl (fun n b => 256 * n + b.toNat) n = n * 256 ^ bytes.length + ofBigEndian bytes := by
  induction bytes generalizing n with
  | nil => simp [ofBigEndian]
  | cons b bytes ih =>
    rw [ofBigEndian, List.foldl_cons, List.foldl_cons, ih, ih (256 * 0 + b.toNat), List.length_cons,
      Nat.pow_succ]
    ring

/-- The lowest bytes of a number stand for its remainder. -/
theorem ofBigEndian_bigEndian_eq_mod (count n : Nat) :
    ofBigEndian (bigEndian count n) = n % 256 ^ count := by
  induction count with
  | zero => rw [Nat.pow_zero, Nat.mod_one]; rfl
  | succ count ih =>
    have hbyte : (n / twoTo (8 * count)).toUInt8.toNat = n / 256 ^ count % 256 := by
      have hunit : twoTo (8 * count) = 256 ^ count := Nat.pow_mul 2 8 count
      rw [hunit]
      rfl
    rw [bigEndian_succ, ofBigEndian, List.foldl_cons, foldl_bytes, length_bigEndian, ih, hbyte,
      Nat.pow_succ, Nat.mod_mul]
    ring

/-- **Enough bytes** stand for the number itself. -/
theorem ofBigEndian_bigEndian {count n : Nat} (hn : n < 256 ^ count) :
    ofBigEndian (bigEndian count n) = n := by
  rw [ofBigEndian_bigEndian_eq_mod, Nat.mod_eq_of_lt hn]

/-! ### Integers -/

/-- The integer that a number of `count` bytes stands for in two's complement. -/
def ofTwosComplement (count n : Nat) : Int :=
  if n < twoTo (8 * count - 1) then n else n - 2 * twoTo (8 * count - 1)

theorem twosComplement?_eq_some_iff {count : Nat} {i : Int} {bytes : List UInt8} :
    twosComplement? count i = some bytes ↔
      (-(twoTo (8 * count - 1) : Int) ≤ i ∧ i < twoTo (8 * count - 1)) ∧
        bigEndian count (i % (2 * twoTo (8 * count - 1))).toNat = bytes := by
  rw [twosComplement?]
  simp only [Option.ite_none_right_eq_some, Option.some_inj]

/-- **Two's complement** stands for the integer that it was written for. -/
theorem ofTwosComplement_of_twosComplement?_eq_some {count : Nat} (hcount : 0 < count) {i : Int}
    {bytes : List UInt8} (h : twosComplement? count i = some bytes) :
    bytes.length = count ∧ ofTwosComplement count (ofBigEndian bytes) = i := by
  obtain ⟨⟨hlower, hupper⟩, rfl⟩ := twosComplement?_eq_some_iff.mp h
  have hhalf : 0 < twoTo (8 * count - 1) := Nat.two_pow_pos _
  have hunit : 256 ^ count = 2 * twoTo (8 * count - 1) := by
    have hpow : twoTo (8 * count) = 256 ^ count := Nat.pow_mul 2 8 count
    have hsucc := twoTo_succ (8 * count - 1)
    rw [Nat.sub_add_cancel (by omega)] at hsucc
    omega
  refine ⟨length_bigEndian _ _, ?_⟩
  unfold ofTwosComplement
  generalize twoTo (8 * count - 1) = half at *
  have hlt : i % (2 * half) < 2 * half := Int.emod_lt_of_pos _ (by omega)
  have hmod : i % (2 * half) = if 0 ≤ i then i else i + 2 * half := by
    split
    · exact Int.emod_eq_of_lt ‹_› (by omega)
    · rw [← Int.add_emod_right, Int.emod_eq_of_lt (by omega) (by omega)]
  rw [ofBigEndian_bigEndian (by omega), hmod]
  split <;> split <;> omega

/-! ### Texts -/

/-- The loop over an array has the bytes before place `i` in reverse, and adds the others. -/
theorem toList_loop_eq (bytes : ByteArray) (i : Nat) (read : List UInt8) :
    ByteArray.toList.loop bytes i read = read.reverse ++ bytes.data.toList.drop i := by
  induction i, read using ByteArray.toList.loop.induct bytes with
  | case1 i read hi ih =>
    have hi' : i < bytes.data.toList.length := hi
    have hget : bytes.get! i = bytes.data.toList[i] := getElem!_pos bytes.data i hi
    rw [ByteArray.toList.loop, if_pos hi, ih, List.drop_eq_getElem_cons hi', hget,
      List.reverse_cons, List.append_assoc]
    rfl
  | case2 i read hi =>
    have hi' : bytes.data.toList.length ≤ i := Nat.le_of_not_lt hi
    rw [ByteArray.toList.loop, if_neg hi, List.drop_eq_nil_of_le hi', List.append_nil]

/-- The bytes of an array one after the other. -/
theorem toList_eq_data (bytes : ByteArray) : bytes.toList = bytes.data.toList :=
  toList_loop_eq bytes 0 []

/-- **The bytes of a text** are read as the text. -/
theorem textOfBytes?_toUTF8 (s : String) : textOfBytes? s.toUTF8.toList = some s := by
  rw [textOfBytes?, toList_eq_data]
  exact dif_pos s.isValidUTF8

/-! ### Bits of a float as an integer -/

/-- The integer that a finite number is. -/
theorem toInt?_finite_eq_some {negative : Bool} {m : Nat} {e i : Int}
    (h : (Decoded.finite negative m e).toInt? = some i) :
    ∃ n : Nat, i = (if negative then -(n : Int) else n) ∧
      ((0 ≤ e ∧ n = m * 2 ^ e.toNat) ∨ (e < 0 ∧ m = n * 2 ^ (-e).toNat)) := by
  obtain ⟨n, hn, rfl⟩ := Option.map_eq_some_iff.mp h
  refine ⟨n, rfl, ?_⟩
  split at hn
  · exact Or.inl ⟨‹_›, (Option.some.inj hn).symm⟩
  · dsimp only at hn
    split at hn
    · obtain rfl := Option.some.inj hn
      refine Or.inr ⟨Int.lt_of_not_ge ‹_›, ?_⟩
      exact (Nat.div_mul_cancel (Nat.dvd_of_mod_eq_zero ‹_›)).symm
    · cases hn

/-- The bits as an integer: they are those of the magnitude, or what is missing to the sign's. -/
theorem natAbs_ofTwosComplement {bits n : Nat} (hbits : bits < 2 ^ 64)
    (h : ofTwosComplement 8 bits = if bits / 2 ^ 63 % 2 == 1 then -(n : Int) else n) :
    (bits < 2 ^ 63 ∧ n = bits) ∨ (2 ^ 63 ≤ bits ∧ n + bits = 2 ^ 64) := by
  have hinteger : ofTwosComplement 8 bits =
      if bits < 2 ^ 63 then (bits : Int) else bits - 2 * 2 ^ 63 := rfl
  rw [hinteger] at h
  rcases Nat.lt_or_ge bits (2 ^ 63) with hlt | hge
  · have hsign : (bits / 2 ^ 63 % 2 == 1) = false := by
      rw [Nat.div_eq_of_lt hlt]
      rfl
    rw [if_pos hlt, hsign] at h
    exact Or.inl ⟨hlt, by simpa using h.symm⟩
  · have hsign : (bits / 2 ^ 63 % 2 == 1) = true := by
      have hone : bits / 2 ^ 63 = 1 := by omega
      rw [hone]
      rfl
    rw [if_neg (Nat.not_lt.mpr hge), hsign, if_pos rfl] at h
    exact Or.inr ⟨hge, by omega⟩

/-- A number of `k` places above one is neither what its own fields make nor what is missing to them
from the bit of the sign: of the places that are near enough, the equations hold for no fraction. -/
theorem places_ne {field fraction k : Nat} (hfield : field = 1075 + k) (htop : field < 2048)
    (hfraction : fraction < 2 ^ 52) :
    (2 ^ 52 + fraction) * 2 ^ k ≠ field * 2 ^ 52 + fraction ∧
      (2 ^ 52 + fraction) * 2 ^ k + (field * 2 ^ 52 + fraction) ≠ 2 ^ 63 := by
  rcases Nat.lt_or_ge k 12 with hk | hk
  · subst hfield
    interval_cases k <;> omega
  · have hpow : 2 ^ 12 ≤ 2 ^ k := Nat.pow_le_pow_right (by decide) hk
    have hle := Nat.mul_le_mul_left (2 ^ 52 + fraction) hpow
    omega

/-- The least numbers are far below one, so that only zero is an integer. -/
theorem toInt?_least_eq_some {negative : Bool} {fraction : Nat} {i : Int}
    (hfraction : fraction < 2 ^ 52)
    (h : (Decoded.finite negative fraction (-1074)).toInt? = some i) : i = 0 := by
  obtain ⟨n, rfl, ⟨he, -⟩ | ⟨-, hm⟩⟩ := toInt?_finite_eq_some h
  · exact absurd he (by decide)
  · have hunit : 2 ^ 52 ≤ 2 ^ (-(-1074 : Int)).toNat := Nat.pow_le_pow_right (by decide) (by decide)
    have hzero : n = 0 := by
      by_contra hne
      have hle := Nat.le_mul_of_pos_left (2 ^ (-(-1074 : Int)).toNat) (Nat.pos_of_ne_zero hne)
      omega
    rw [hzero]
    exact ite_self 0

/-- The integer that any other number is, is neither what its fields make nor what is missing to
them from the bit of the sign. -/
theorem toInt?_number_ne {negative : Bool} {field fraction n : Nat} (hfield : field ≠ 0)
    (htop : field < 2048) (hfraction : fraction < 2 ^ 52)
    (h : (Decoded.finite negative (2 ^ 52 + fraction) (-1074 + (field : Int) - 1)).toInt? =
      some (if negative then -(n : Int) else n)) :
    n ≠ field * 2 ^ 52 + fraction ∧ n + (field * 2 ^ 52 + fraction) ≠ 2 ^ 63 := by
  obtain ⟨n', hn, hplaces⟩ := toInt?_finite_eq_some h
  obtain rfl : n = n' := by
    cases negative <;> simpa using hn
  rcases hplaces with ⟨he, hm⟩ | ⟨he, hm⟩
  · obtain ⟨k, hk⟩ := Int.eq_ofNat_of_zero_le he
    rw [hk, Int.toNat_natCast] at hm
    rw [hm]
    exact places_ne (by omega) htop hfraction
  · -- Below the place of one, half of the mantissa is less than the fields make.
    have hunit : 2 ≤ 2 ^ (-(-1074 + (field : Int) - 1)).toNat := Nat.le_self_pow (by omega) 2
    have hle := Nat.mul_le_mul_left n hunit
    generalize n * 2 ^ (-(-1074 + (field : Int) - 1)).toNat = m at hm hle
    omega

/-- **The bits of a float** are the integer that it is only if all of them are zero. -/
theorem toInt?_decode_eq_some_iff {bits : Nat} (hbits : bits < 2 ^ 64) :
    (binary64.decode bits).toInt? = some (ofTwosComplement 8 bits) ↔ bits = 0 := by
  refine ⟨fun h => ?_, fun h => by subst h; decide +kernel⟩
  have hdecode : binary64.decode bits =
      if bits / 2 ^ 52 % 2 ^ 11 = 2047 then
        if bits % 2 ^ 52 = 0 then .infinite (bits / 2 ^ 63 % 2 == 1) else .nan
      else if bits / 2 ^ 52 % 2 ^ 11 = 0 then
        .finite (bits / 2 ^ 63 % 2 == 1) (bits % 2 ^ 52) (-1074)
      else .finite (bits / 2 ^ 63 % 2 == 1) (2 ^ 52 + bits % 2 ^ 52)
        (-1074 + (bits / 2 ^ 52 % 2 ^ 11 : Nat) - 1) := rfl
  rw [hdecode] at h
  have hfraction : bits % 2 ^ 52 < 2 ^ 52 := Nat.mod_lt _ (by decide)
  have hfield : bits / 2 ^ 52 % 2 ^ 11 < 2048 := Nat.mod_lt _ (by decide)
  have hfields : bits / 2 ^ 63 * 2 ^ 63 +
      (bits / 2 ^ 52 % 2 ^ 11 * 2 ^ 52 + bits % 2 ^ 52) = bits := by
    omega
  have hcases : ∀ {n : Nat},
      ofTwosComplement 8 bits = (if bits / 2 ^ 63 % 2 == 1 then -(n : Int) else n) →
        n = bits / 2 ^ 52 % 2 ^ 11 * 2 ^ 52 + bits % 2 ^ 52 ∧ n = bits ∨
          n + (bits / 2 ^ 52 % 2 ^ 11 * 2 ^ 52 + bits % 2 ^ 52) = 2 ^ 63 := fun hn => by
    have := natAbs_ofTwosComplement hbits hn
    omega
  -- What is left is about the three fields of the pattern.
  generalize bits / 2 ^ 52 % 2 ^ 11 = field at *
  generalize bits % 2 ^ 52 = fraction at *
  generalize (bits / 2 ^ 63 % 2 == 1) = negative at *
  split at h
  · split at h <;> cases h
  · split at h
    · obtain ⟨n, hn, -⟩ := toInt?_finite_eq_some h
      have hzero := toInt?_least_eq_some hfraction h
      have hn' := hcases hn
      rw [hzero] at hn
      have : n = 0 := by
        split at hn <;> omega
      omega
    · obtain ⟨n, hn, -⟩ := toInt?_finite_eq_some h
      rw [hn] at h
      obtain ⟨hne, hne'⟩ := toInt?_number_ne ‹_› hfield hfraction h
      rcases hcases hn with ⟨heq, -⟩ | heq
      · exact absurd heq hne
      · exact absurd heq hne'

end NestedQuery
