import NestedQuery.Graph.Convert
import NestedQuery.Proofs.Number.Rounding
import NestedQuery.Proofs.Result
import NestedQuery.Value.Argument

/-!
# Arguments there and back

A document without objects becomes a value (`Value.ofDocument`), and as it is the value becomes a
document again. Everything comes back as it was, except the integers above the signed range: these
have become the nearest reals (`Document.withReals`), so they come back as numbers of another kind,
and as other numbers unless they have eleven zero bits at the end. The main result is
`Value.convert_ofDocument`.
-/

namespace NestedQuery

open Number

/-! ### Integers above the signed range -/

namespace Number

theorem toInt?_finite_of_eq {m k : ℕ} {e : ℤ} (h : (m : ℚ) * 2 ^ e = k) :
    (Decoded.finite false m e).toInt? = some (k : ℤ) := by
  rcases Int.le_total 0 e with he | he
  · obtain ⟨d, rfl⟩ := Int.eq_ofNat_of_zero_le he
    have hk : m * twoTo d = k := by
      rw [zpow_natCast, ← cast_twoTo] at h
      exact_mod_cast h
    simp only [Decoded.toInt?, if_pos he, Int.toNat_natCast, hk]
    rfl
  · obtain ⟨d, hd⟩ := Int.eq_ofNat_of_zero_le (neg_nonneg.mpr he)
    obtain rfl : e = -(d : ℤ) := by omega
    have hk : m = k * twoTo d := by
      rw [zpow_neg, zpow_natCast, ← cast_twoTo, ← div_eq_mul_inv,
        div_eq_iff (by exact_mod_cast (Nat.two_pow_pos d).ne')] at h
      exact_mod_cast h
    have hunit : 0 < twoTo d := Nat.two_pow_pos d
    rcases Nat.eq_zero_or_pos d with rfl | hpos
    · simp only [Decoded.toInt?, hk]
      simp [twoTo]
    · simp only [Decoded.toInt?, if_neg (show ¬ (0 : ℤ) ≤ -(d : ℤ) by omega), neg_neg,
        Int.toNat_natCast, hk, Nat.mul_mod_left, if_true, Nat.mul_div_cancel _ hunit]
      rfl

theorem le_roundShift {n : ℕ} (hlower : 2 ^ 63 ≤ n) : twoTo 52 ≤ Format.roundShift n 11 := by
  have hwhole : twoTo 52 ≤ n / twoTo 11 :=
    (Nat.le_div_iff_mul_le (Nat.two_pow_pos 11)).mpr hlower
  unfold Format.roundShift
  dsimp only
  split
  · exact hwhole.trans (Nat.le_succ _)
  · exact hwhole

theorem roundShift_of_dvd {n : ℕ} (h : 2048 ∣ n) : Format.roundShift n 11 = n / 2048 := by
  have hrest : n % twoTo 11 = 0 := Nat.mod_eq_zero_of_dvd h
  have hunit : (0 : ℕ) < twoTo 11 := Nat.two_pow_pos 11
  unfold Format.roundShift
  simp only [hrest]
  rw [if_neg (by omega)]
  rfl

/-- An integer with 64 bits is rounded at the eleventh of them. -/
theorem encodeMagnitude_of_le {n : ℕ} (hlower : 2 ^ 63 ≤ n) (hupper : n < 2 ^ 64) :
    binary64.encodeMagnitude n 0 = 1085 * twoTo 52 + Format.roundShift n 11 := by
  have hpos : n ≠ 0 := by omega
  have hlog : n.log2 = 63 := (Nat.log2_eq_iff hpos).mpr ⟨hlower, hupper⟩
  have hsmall : Format.roundShift n 11 ≤ twoTo 53 := by
    have hle := roundShift_le_twoTo hpos (show 52 < n.log2 by omega)
    rwa [hlog] at hle
  have hplace : max (0 + ((63 : ℕ) : ℤ) - (binary64.fractionBits : ℕ)) binary64.leastExponent =
      11 := by decide
  have hplaces : ((11 : ℤ) - binary64.leastExponent).toNat = 1085 := by decide
  have hbelow : 1085 * twoTo 52 + twoTo 53 ≤ binary64.topExponent * twoTo 52 := by decide
  rw [Format.encodeMagnitude, if_neg hpos]
  dsimp only
  rw [hlog, hplace, hplaces, if_neg (by decide)]
  exact Nat.min_eq_left ((Nat.add_le_add_left hsmall _).trans hbelow)

/-- The real nearest to such an integer. -/
theorem floatToInt?_floatOfInt {n : ℕ} (hlower : 2 ^ 63 ≤ n) (hupper : n < 2 ^ 64) :
    floatToInt? (floatOfInt n) = some ((Format.roundShift n 11 * 2048 : ℕ) : ℤ) := by
  have hpos : n ≠ 0 := by omega
  have hlog : n.log2 = 63 := (Nat.log2_eq_iff hpos).mpr ⟨hlower, hupper⟩
  have hsmall : Format.roundShift n 11 ≤ 2 * twoTo 52 := by
    have hle := roundShift_le_twoTo hpos (show 52 < n.log2 by omega)
    rwa [hlog] at hle
  have hlarge : twoTo 52 ≤ Format.roundShift n 11 := le_roundShift hlower
  have hfinite : 1085 * twoTo 52 + Format.roundShift n 11 < binary64.infinitePattern := by
    have hbelow : 1085 * twoTo 52 + 2 * twoTo 52 < binary64.infinitePattern := by decide
    omega
  -- The number has 64 bits, of which 53 are kept: its place is 11 bits up.
  have hmagnitude : binary64.magnitude (1085 * twoTo 52 + Format.roundShift n 11) =
      (Format.roundShift n 11 * 2048 : ℕ) := by
    have hplace : binary64.leastExponent + (1085 : ℕ) = (11 : ℕ) := by decide
    have hvalue := Format.magnitude_place (f := binary64) (k := 1085) hsmall (Or.inr hlarge)
    rw [hplace, zpow_natCast] at hvalue
    push_cast
    rw [show (2048 : ℚ) = 2 ^ 11 by norm_num]
    exact hvalue
  obtain ⟨m, e, hdecode, hvalue⟩ := Format.decode_signBit binary64 false hfinite
  have hbits : (floatOfInt (n : ℤ)).toBits.toNat =
      binary64.signBit false + (1085 * twoTo 52 + Format.roundShift n 11) := by
    rw [toBits_floatOfInt_of_lt (by simpa using hupper), Int.natAbs_natCast,
      ← encodeMagnitude_of_le hlower hupper,
      show decide ((n : ℤ) < 0) = false from decide_eq_false (by omega)]
    rfl
  rw [floatToInt?, decodeFloat, hbits, hdecode]
  exact toInt?_finite_of_eq (hvalue.trans hmagnitude)

/-- **Which integers above the signed range are reals**: those whose last eleven bits are zero. -/
theorem floatToInt?_floatOfInt_eq_self_iff {n : ℕ} (hlower : 2 ^ 63 ≤ n) (hupper : n < 2 ^ 64) :
    floatToInt? (floatOfInt n) = some (n : ℤ) ↔ 2048 ∣ n := by
  rw [floatToInt?_floatOfInt hlower hupper, Option.some.injEq, Nat.cast_inj]
  constructor
  · exact Dvd.intro_left _
  · intro hdvd
    rw [roundShift_of_dvd hdvd]
    exact Nat.div_mul_cancel hdvd

end Number

/-! ### Documents that become values -/

namespace Document

mutual

/-- Whether a document has no objects in it, and no number that is infinite or none. -/
def isPlain : Document → Bool
  | .float x => isFiniteFloat x
  | .array items => arePlain items
  | .object _ => false
  | _ => true

/-- Whether the same holds for several documents. -/
def arePlain : List Document → Bool
  | [] => true
  | d :: ds => d.isPlain && arePlain ds

end

mutual

/-- The document with the nearest reals in place of the integers above the signed range. -/
def withReals : Document → Document
  | .unsigned n => .float (floatOfInt n.toNat)
  | .array items => .array (allWithReals items)
  | d => d

/-- The same for several documents. -/
def allWithReals : List Document → List Document
  | [] => []
  | d :: ds => d.withReals :: allWithReals ds

end

mutual

/-- The integers above the signed range, in order. -/
def unsigneds : Document → List UInt64
  | .unsigned n => [n]
  | .array items => allUnsigneds items
  | _ => []

/-- The same for several documents. -/
def allUnsigneds : List Document → List UInt64
  | [] => []
  | d :: ds => d.unsigneds ++ allUnsigneds ds

end

mutual

theorem withReals_eq_self_iff {d : Document} (h : d.isPlain = true) :
    d.withReals = d ↔ d.unsigneds = [] := by
  cases d with
  | unsigned n => simp [withReals, unsigneds]
  | array items =>
    rw [withReals, unsigneds, array.injEq]
    exact allWithReals_eq_self_iff h
  | object members => cases h
  | _ => exact iff_of_true rfl rfl

theorem allWithReals_eq_self_iff {ds : List Document} (h : arePlain ds = true) :
    allWithReals ds = ds ↔ allUnsigneds ds = [] := by
  cases ds with
  | nil => exact iff_of_true rfl rfl
  | cons d ds =>
    obtain ⟨hd, hds⟩ := Bool.and_eq_true_iff.mp h
    rw [allWithReals, allUnsigneds, List.cons.injEq, List.append_eq_nil_iff,
      withReals_eq_self_iff hd, allWithReals_eq_self_iff hds]

end

end Document

namespace Value

open Document

mutual

/-- A plain document becomes a value, and comes back with its reals. -/
theorem natural_ofDocument {d : Document} (h : d.isPlain = true) :
    ∃ v, ofDocument d = .ok v ∧ v.natural = .ok d.withReals := by
  cases d with
  | null => exact ⟨.null, rfl, rfl⟩
  | bool b => exact ⟨.bool b, rfl, rfl⟩
  | integer i => exact ⟨.integer i, rfl, rfl⟩
  | unsigned n =>
    have hn : (n.toNat : ℤ).natAbs < 2 ^ 64 := n.toNat_lt
    exact ⟨.real (floatOfInt n.toNat), rfl, if_pos (isFiniteFloat_floatOfInt hn)⟩
  | float x => exact ⟨.real x, rfl, if_pos h⟩
  | text s => exact ⟨.text s, rfl, rfl⟩
  | array items =>
    obtain ⟨vs, hvs, hback⟩ := naturalAll_ofDocuments (show arePlain items = true from h)
    refine ⟨.list vs, ?_, ?_⟩
    · rw [ofDocument, hvs]
      rfl
    · rw [natural, hback]
      rfl
  | object members => cases h

theorem naturalAll_ofDocuments {ds : List Document} (h : arePlain ds = true) :
    ∃ vs, ofDocuments ds = .ok vs ∧ naturalAll vs = .ok (allWithReals ds) := by
  cases ds with
  | nil => exact ⟨[], rfl, rfl⟩
  | cons d ds =>
    obtain ⟨hd, hds⟩ := Bool.and_eq_true_iff.mp h
    obtain ⟨v, hv, hvback⟩ := natural_ofDocument hd
    obtain ⟨vs, hvs, hvsback⟩ := naturalAll_ofDocuments hds
    refine ⟨v :: vs, ?_, ?_⟩
    · rw [ofDocuments, hv, hvs]
      rfl
    · rw [naturalAll, hvback, hvsback]
      rfl

end

theorem convert_any (v : Value) : v.convert .any = direct <$> v.natural := by
  cases v <;> rfl

/-- **How arguments come back.** A plain document becomes a value, which as it is becomes the
document with the nearest reals in place of its integers above the signed range: the same document
just if it has none of these. Such an integer is never of the same kind again, and it is the same
number just if its last eleven bits are zero. -/
theorem convert_ofDocument {d : Document} (h : d.isPlain = true) :
    ∃ v, ofDocument d = .ok v ∧ v.convert .any = .ok (direct d.withReals) ∧
      (v.convert .any = .ok (direct d) ↔ d.unsigneds = []) ∧
      ∀ n ∈ d.unsigneds,
        binary64.Rounds (.finite false n.toNat 0) (decodeFloat (floatOfInt n.toNat)) ∧
        (2 ^ 63 ≤ n.toNat →
          (floatToInt? (floatOfInt n.toNat) = some (n.toNat : ℤ) ↔ 2048 ∣ n.toNat)) := by
  obtain ⟨v, hv, hback⟩ := natural_ofDocument h
  have hconvert : v.convert .any = .ok (direct d.withReals) := by
    rw [convert_any, hback]
    rfl
  refine ⟨v, hv, hconvert, ?_, fun n _ => ⟨?_, fun hn => ?_⟩⟩
  · rw [hconvert, Except.ok.injEq, direct, direct, Converted.mk.injEq, and_iff_left rfl,
      withReals_eq_self_iff h]
  · have hlt : (n.toNat : ℤ).natAbs < 2 ^ 64 := n.toNat_lt
    rw [decodeFloat, toBits_floatOfInt_of_lt hlt, Int.natAbs_natCast,
      show decide ((n.toNat : ℤ) < 0) = false from decide_eq_false (by omega)]
    exact Format.rounds_encode isProper_binary64 false n.toNat 0
  · exact floatToInt?_floatOfInt_eq_self_iff hn n.toNat_lt

/-- The largest integer of 64 bits becomes a real that is greater by one, also inside a list. -/
theorem convert_ofDocument_largest :
    (Document.array [.integer 1, .unsigned 18446744073709551615]).isPlain = true ∧
      ∃ v, ofDocument (.array [.integer 1, .unsigned 18446744073709551615]) = .ok v ∧
        v.convert .any ≠
          .ok (direct (.array [.integer 1, .unsigned 18446744073709551615])) ∧
        floatToInt? (floatOfInt (18446744073709551615 : UInt64).toNat) ≠
          some 18446744073709551615 := by
  have hplain : (Document.array [.integer 1, .unsigned 18446744073709551615]).isPlain = true := rfl
  obtain ⟨v, hv, -, hsame, hnumbers⟩ := convert_ofDocument hplain
  refine ⟨hplain, v, hv, fun hback => absurd (hsame.mp hback) (by decide), fun heq => ?_⟩
  obtain ⟨-, hexact⟩ := hnumbers 18446744073709551615 (by decide)
  exact absurd ((hexact (by decide)).mp heq) (by decide)

end Value

end NestedQuery
