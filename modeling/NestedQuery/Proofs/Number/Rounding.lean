import Mathlib
import NestedQuery.Proofs.Number.Finite

/-!
# Rounding to the nearest number of a format

The patterns of a format without their signs are numbered in the order of the numbers they stand
for: `Format.magnitude` grows strictly with the pattern. The pattern of an infinity takes part in
this as the number that would follow the greatest one, so whatever is nearer to it than to the
greatest number is rounded to an infinity.

`Format.Rounds` says that a decoded value is what another one is rounded to: the nearest number of
the format, with an even pattern if two are equally near. The main result is `rounds_encode`: the
pattern that `Format.encode` finds stands for such a number.

A magnitude is `s * 2 ^ (f.leastExponent + k)` with `s` of at most one bit more than the fraction,
and of exactly as many if `k ≠ 0` (`exists_place`, `magnitude_place`); this `k` is the place that
the last bit of the pattern has. Rounding works at the place of the number that is rounded. Numbers
of the format with a higher place are multiples of a unit of that place, and those with a lower one
are too far below.
-/

namespace NestedQuery.Number

theorem cast_twoTo (n : ℕ) : (twoTo n : ℚ) = 2 ^ n :=
  Nat.cast_pow 2 n

/-! ### Nearest points -/

/-- Of the points at the places in `s`, that at place `i` is nearest to `x`; where another one is as
near, `i` is even. -/
def IsNearest (s : Set ℕ) (points : ℕ → ℚ) (x : ℚ) (i : ℕ) : Prop :=
  i ∈ s ∧ ∀ j ∈ s, j ≠ i →
    |x - points i| < |x - points j| ∨ (|x - points i| = |x - points j| ∧ i % 2 = 0)

/-- The natural number nearest to `t`. -/
abbrev IsNearestNat (t : ℚ) (n : ℕ) : Prop :=
  IsNearest Set.univ Nat.cast t n

theorem IsNearest.abs_sub_le {s : Set ℕ} {points : ℕ → ℚ} {x : ℚ} {i : ℕ}
    (h : IsNearest s points x i) {j : ℕ} (hj : j ∈ s) : |x - points i| ≤ |x - points j| := by
  by_cases hij : j = i
  · rw [hij]
  · rcases h.2 j hj hij with hlt | ⟨heq, -⟩
    · exact hlt.le
    · exact heq.le

/-- A point that grows with its place is nearest to itself. -/
theorem isNearest_self {s : Set ℕ} {points : ℕ → ℚ} (hpoints : StrictMono points) {i : ℕ}
    (hi : i ∈ s) : IsNearest s points (points i) i := by
  refine ⟨hi, fun j _ hij => Or.inl ?_⟩
  rw [sub_self, abs_zero, abs_pos, sub_ne_zero]
  exact fun heq => hij (hpoints.injective heq).symm

namespace IsNearestNat

variable {t : ℚ} {n k : ℕ}

theorem le_of_le (h : IsNearestNat t n) (hk : (k : ℚ) ≤ t) : k ≤ n := by
  by_contra hlt
  have hnk : (n : ℚ) < k := by exact_mod_cast Nat.lt_of_not_le hlt
  have hle := h.abs_sub_le (Set.mem_univ k)
  rw [abs_of_nonneg (by linarith), abs_of_nonneg (by linarith)] at hle
  linarith

theorem le_of_ge (h : IsNearestNat t n) (hk : t ≤ k) : n ≤ k := by
  by_contra hlt
  have hkn : (k : ℚ) < n := by exact_mod_cast Nat.lt_of_not_le hlt
  have hle := h.abs_sub_le (Set.mem_univ k)
  rw [abs_of_nonpos (by linarith), abs_of_nonpos (by linarith)] at hle
  linarith

end IsNearestNat

/-- Between two natural numbers the nearer one is nearest, and at half way the even one. -/
theorem isNearestNat_of_fraction {w : ℕ} {r : ℚ} (hr : 0 ≤ r) (hr1 : r < 1) :
    IsNearestNat (w + r) (if 1 < 2 * r ∨ (2 * r = 1 ∧ w % 2 = 1) then w + 1 else w) := by
  refine ⟨Set.mem_univ _, fun j _ hj => ?_⟩
  -- The distances from below and from above.
  have hbelow : ∀ j : ℕ, j ≤ w → |w + r - (j : ℚ)| = w - j + r := fun j hj => by
    have hjw : (j : ℚ) ≤ w := by exact_mod_cast hj
    rw [abs_of_nonneg (by linarith)]
    ring
  have habove : ∀ j : ℕ, w + 1 ≤ j → |w + r - (j : ℚ)| = j - w - r := fun j hj => by
    have hjw : (w : ℚ) + 1 ≤ j := by exact_mod_cast hj
    rw [abs_of_nonpos (by linarith)]
    ring
  split at hj <;> rename_i hcase
  · rw [if_pos hcase, habove _ le_rfl]
    push_cast
    rcases Nat.lt_or_ge w j with hwj | hjw
    · have hj' : (w : ℚ) + 2 ≤ j := by exact_mod_cast (show w + 2 ≤ j by omega)
      rw [habove j hwj]
      exact Or.inl (by linarith)
    · have hj' : (j : ℚ) ≤ w := by exact_mod_cast hjw
      rw [hbelow j hjw]
      rcases hcase with hhalf | ⟨hhalf, hodd⟩
      · exact Or.inl (by linarith)
      · rcases hj'.lt_or_eq with hlt | heq
        · exact Or.inl (by linarith)
        · exact Or.inr ⟨by linarith, by omega⟩
  · rw [if_neg hcase, hbelow _ le_rfl]
    obtain ⟨hhalf, heven⟩ := not_or.mp hcase
    rcases Nat.lt_or_ge w j with hwj | hjw
    · have hj' : (w : ℚ) + 1 ≤ j := by exact_mod_cast hwj
      rw [habove j hwj]
      rcases (not_lt.mp hhalf).lt_or_eq with hlt | heq
      · exact Or.inl (by linarith)
      · rcases hj'.lt_or_eq with hlt | hnext
        · exact Or.inl (by linarith)
        · have hw : ¬ w % 2 = 1 := fun hw => heven ⟨heq, hw⟩
          exact Or.inr ⟨by linarith, by omega⟩
    · have hj' : (j : ℚ) < w := by exact_mod_cast lt_of_le_of_ne hjw hj
      rw [hbelow j hjw]
      exact Or.inl (by linarith)

/-- **Shifting** a natural number rounds it to the nearest one. -/
theorem isNearestNat_roundShift (m shift : ℕ) :
    IsNearestNat (m / 2 ^ shift) (Format.roundShift m shift) := by
  have hd : (0 : ℚ) < 2 ^ shift := by positivity
  have hm : (m : ℚ) / 2 ^ shift = (m / 2 ^ shift : ℕ) + (m % 2 ^ shift : ℕ) / 2 ^ shift := by
    rw [div_eq_iff hd.ne', add_mul, div_mul_cancel₀ _ hd.ne']
    exact_mod_cast (Nat.div_add_mod' m (2 ^ shift)).symm
  have hlt : ((m % 2 ^ shift : ℕ) : ℚ) < 2 ^ shift := by
    exact_mod_cast Nat.mod_lt m (Nat.two_pow_pos shift)
  have hnearest := isNearestNat_of_fraction (w := m / 2 ^ shift)
    (r := (m % 2 ^ shift : ℕ) / 2 ^ shift) (by positivity) ((div_lt_one hd).mpr hlt)
  rw [hm]
  convert hnearest using 1
  unfold Format.roundShift
  show (if 2 ^ shift < 2 * (m % 2 ^ shift) ∨ _ then _ else _) = _
  congr 1
  rw [← mul_div_assoc, one_lt_div hd, div_eq_one_iff_eq hd.ne']
  refine propext (or_congr ?_ (and_congr_left' ?_))
  · exact_mod_cast Iff.rfl
  · exact_mod_cast Iff.rfl

/-! ### The numbers of a format -/

namespace Format

variable {f : Format}

/-- The pattern of an infinity, without its sign. -/
def infinitePattern (f : Format) : ℕ :=
  f.topExponent * twoTo f.fractionBits

/-- The number that a pattern without sign stands for. That of an infinity counts as the number that
would follow the greatest one. -/
def magnitude (f : Format) (pattern : ℕ) : ℚ :=
  let field := pattern / twoTo f.fractionBits
  let fraction := pattern % twoTo f.fractionBits
  if field = 0 then fraction * 2 ^ f.leastExponent
  else (twoTo f.fractionBits + fraction : ℕ) * 2 ^ (f.leastExponent + field - 1)

/-- What a format needs to hold numbers: its fields have bits. -/
structure IsProper (f : Format) : Prop where
  /-- The fraction has bits. -/
  fraction : 0 < f.fractionBits
  /-- The exponent has bits. -/
  exponent : 0 < f.exponentBits

/-- A pattern whose last bit has the place `k`, and `s` ones of this place. -/
theorem magnitude_place {k s : ℕ} (hs : s ≤ 2 * twoTo f.fractionBits)
    (hk : k = 0 ∨ twoTo f.fractionBits ≤ s) :
    f.magnitude (k * twoTo f.fractionBits + s) = s * 2 ^ (f.leastExponent + k) := by
  have hunit : 0 < twoTo f.fractionBits := Nat.two_pow_pos _
  rcases Nat.lt_or_ge s (twoTo f.fractionBits) with hlt | hge
  · -- Fewer ones than the fraction holds are a subnormal number.
    obtain rfl : k = 0 := hk.resolve_right (Nat.not_le.mpr hlt)
    simp only [magnitude, Nat.zero_mul, Nat.zero_add, Nat.div_eq_of_lt hlt, Nat.mod_eq_of_lt hlt]
    simp
  · rcases hs.lt_or_eq with hlt | rfl
    · obtain ⟨r, rfl⟩ := Nat.exists_eq_add_of_le hge
      have hr : r < twoTo f.fractionBits := by omega
      have hpattern : k * twoTo f.fractionBits + (twoTo f.fractionBits + r) =
          r + twoTo f.fractionBits * (k + 1) := by ring
      simp only [magnitude, hpattern, Nat.add_mul_div_left _ _ hunit, Nat.add_mul_mod_self_left,
        Nat.div_eq_of_lt hr, Nat.mod_eq_of_lt hr]
      rw [if_neg (by omega)]
      congr 2
      push_cast
      ring
    · -- One carry: the fraction is empty, and the unit is twice as large.
      have hpattern : k * twoTo f.fractionBits + 2 * twoTo f.fractionBits =
          twoTo f.fractionBits * (k + 2) := by ring
      simp only [magnitude, hpattern, Nat.mul_div_cancel_left _ hunit, Nat.mul_mod_right]
      rw [if_neg (by omega)]
      have hexponent : f.leastExponent + (k + 2 : ℕ) - 1 = f.leastExponent + k + 1 := by
        push_cast
        ring
      rw [hexponent, zpow_add_one₀ two_ne_zero]
      push_cast
      ring

/-- Every pattern has a place. -/
theorem exists_place (f : Format) (pattern : ℕ) :
    ∃ k s, pattern = k * twoTo f.fractionBits + s ∧ s < 2 * twoTo f.fractionBits ∧
      (k = 0 ∨ twoTo f.fractionBits ≤ s) := by
  have hunit : 0 < twoTo f.fractionBits := Nat.two_pow_pos _
  have hmod := Nat.mod_lt pattern hunit
  have hpattern := Nat.div_add_mod' pattern (twoTo f.fractionBits)
  rcases Nat.eq_zero_or_pos (pattern / twoTo f.fractionBits) with hfield | hfield
  · refine ⟨0, pattern % twoTo f.fractionBits, ?_, by omega, Or.inl rfl⟩
    rw [hfield] at hpattern
    exact hpattern.symm
  · obtain ⟨k, hk⟩ := Nat.exists_eq_add_of_le hfield
    refine ⟨k, twoTo f.fractionBits + pattern % twoTo f.fractionBits, ?_, by omega,
      Or.inr (Nat.le_add_right _ _)⟩
    rw [hk] at hpattern
    linarith

/-- Units of a higher place are whole units of a lower one. -/
theorem two_zpow_place (f : Format) {k l : ℕ} (hkl : k ≤ l) :
    (2 : ℚ) ^ (f.leastExponent + l) = (2 ^ (l - k) : ℕ) * 2 ^ (f.leastExponent + k) := by
  obtain ⟨d, rfl⟩ := Nat.exists_eq_add_of_le hkl
  have hexponent : f.leastExponent + (k + d : ℕ) = d + (f.leastExponent + k) := by
    push_cast
    ring
  rw [hexponent, zpow_add₀ two_ne_zero, Nat.add_sub_cancel_left, zpow_natCast]
  push_cast
  rfl

/-- **Larger patterns** stand for larger numbers. -/
theorem magnitude_strictMono (f : Format) : StrictMono f.magnitude := by
  intro p q hpq
  obtain ⟨k, s, rfl, hs, hk⟩ := f.exists_place p
  obtain ⟨l, r, rfl, hr, hl⟩ := f.exists_place q
  rw [magnitude_place hs.le hk, magnitude_place hr.le hl]
  have hpos : (0 : ℚ) < 2 ^ (f.leastExponent + k) := by positivity
  have hkl : k ≤ l := by
    by_contra hlk
    have hks : twoTo f.fractionBits ≤ s := hk.resolve_left (by omega)
    have hmul := Nat.mul_le_mul_right (twoTo f.fractionBits) (Nat.lt_of_not_le hlk)
    rw [Nat.succ_mul] at hmul
    omega
  rw [f.two_zpow_place hkl, ← mul_assoc]
  refine mul_lt_mul_of_pos_right ?_ hpos
  -- The factor is one at the same place, and at least two further up, where `r` has all its bits.
  have hsr : s < r * 2 ^ (l - k) := by
    rcases hkl.eq_or_lt with rfl | hlt
    · rw [Nat.sub_self, pow_zero, Nat.mul_one]
      omega
    · have hlr : twoTo f.fractionBits ≤ r := hl.resolve_left (by omega)
      have htwo : 2 ≤ 2 ^ (l - k) := Nat.le_self_pow (by omega) 2
      have hmul := Nat.mul_le_mul hlr htwo
      omega
  exact_mod_cast hsr

theorem infinitePattern_eq_place (hf : f.IsProper) :
    f.infinitePattern = (f.topExponent - 1) * twoTo f.fractionBits + twoTo f.fractionBits ∧
      0 < f.topExponent := by
  have htop : 0 < f.topExponent := by
    have htwo : 2 ≤ 2 ^ f.exponentBits := Nat.le_self_pow hf.exponent.ne' 2
    show 0 < 2 ^ f.exponentBits - 1
    omega
  refine ⟨?_, htop⟩
  rw [infinitePattern, ← Nat.succ_mul, Nat.succ_eq_add_one, Nat.sub_add_cancel htop]

/-! ### Rounding at a place -/

section

variable {t : ℚ} {k s : ℕ}

/-- What is rounded to more ones than a pattern has at a place is above the infinite pattern. -/
theorem magnitude_infinitePattern_le (hf : f.IsProper) (ht : IsNearestNat t s)
    (hk : k = 0 ∨ (twoTo f.fractionBits : ℚ) ≤ t) (hs : s ≤ 2 * twoTo f.fractionBits)
    (hlarge : f.infinitePattern < k * twoTo f.fractionBits + s) :
    f.magnitude f.infinitePattern ≤ t * 2 ^ (f.leastExponent + k) := by
  obtain ⟨hpattern, htop⟩ := infinitePattern_eq_place hf
  have hunit : 0 < twoTo f.fractionBits := Nat.two_pow_pos _
  -- Below the top place no pattern is beyond the infinite one.
  have hplace : f.topExponent - 1 ≤ k := by
    by_contra hlt
    have hmul := Nat.mul_le_mul_right (twoTo f.fractionBits)
      (show k + 1 ≤ f.topExponent - 1 by omega)
    rw [Nat.succ_mul] at hmul
    omega
  have hbits : (twoTo f.fractionBits : ℚ) ≤ t := by
    rcases hk with rfl | hk
    · by_contra hlt
      have hs := ht.le_of_ge (not_le.mp hlt).le
      omega
    · exact hk
  rw [hpattern, magnitude_place (by omega) (Or.inr le_rfl), f.two_zpow_place hplace, ← mul_assoc]
  refine mul_le_mul_of_nonneg_right ?_ (by positivity)
  have hone : (1 : ℚ) ≤ (2 ^ (k - (f.topExponent - 1)) : ℕ) := by exact_mod_cast Nat.one_le_two_pow
  exact hbits.trans (le_mul_of_one_le_right (hbits.trans' (by positivity)) hone)

/-- At a place, a pattern below the infinite one is nearest if its ones are. -/
theorem isNearest_place (hf : f.IsProper) (ht : IsNearestNat t s)
    (hk : k = 0 ∨ (twoTo f.fractionBits : ℚ) ≤ t) (hs : s ≤ 2 * twoTo f.fractionBits)
    (hsmall : k * twoTo f.fractionBits + s ≤ f.infinitePattern) :
    IsNearest (Set.Iic f.infinitePattern) f.magnitude (t * 2 ^ (f.leastExponent + k))
      (k * twoTo f.fractionBits + s) := by
  have hpos : (0 : ℚ) < 2 ^ (f.leastExponent + k) := by positivity
  have hks : k = 0 ∨ twoTo f.fractionBits ≤ s := hk.imp_right ht.le_of_le
  have hdistance : ∀ n : ℚ, |t * 2 ^ (f.leastExponent + k) - n * 2 ^ (f.leastExponent + k)| =
      |t - n| * 2 ^ (f.leastExponent + k) := fun n => by
    rw [← sub_mul, abs_mul, abs_of_pos hpos]
  refine ⟨hsmall, fun q _ hq => ?_⟩
  rw [magnitude_place hs hks, hdistance]
  obtain ⟨l, r, rfl, hr, hl⟩ := f.exists_place q
  rcases Nat.lt_or_ge l k with hlk | hkl
  · -- Numbers of a lower place are below the least one of this place, which is not nearer than `s`.
    have hbits : (twoTo f.fractionBits : ℚ) ≤ t := hk.resolve_left (by omega)
    have hleast := ht.abs_sub_le (Set.mem_univ (twoTo f.fractionBits))
    rw [abs_of_nonneg (sub_nonneg.mpr hbits)] at hleast
    have hbelow : f.magnitude (l * twoTo f.fractionBits + r) <
        twoTo f.fractionBits * 2 ^ (f.leastExponent + k) := by
      rw [← magnitude_place (by omega) (Or.inr le_rfl)]
      refine f.magnitude_strictMono ?_
      have hmul := Nat.mul_le_mul_right (twoTo f.fractionBits) (show l + 1 ≤ k from hlk)
      rw [Nat.succ_mul] at hmul
      omega
    refine Or.inl ?_
    calc |t - s| * 2 ^ (f.leastExponent + k)
        ≤ (t - twoTo f.fractionBits) * 2 ^ (f.leastExponent + k) :=
          mul_le_mul_of_nonneg_right hleast hpos.le
      _ < t * 2 ^ (f.leastExponent + k) - f.magnitude (l * twoTo f.fractionBits + r) := by
          rw [sub_mul]
          linarith
      _ ≤ _ := le_abs_self _
  · -- Numbers of this place and of higher ones are whole ones of this place.
    have hmagnitude : f.magnitude (l * twoTo f.fractionBits + r) =
        (r * 2 ^ (l - k) : ℕ) * 2 ^ (f.leastExponent + k) := by
      rw [magnitude_place hr.le hl, f.two_zpow_place hkl, ← mul_assoc]
      push_cast
      rfl
    have hne : r * 2 ^ (l - k) ≠ s := fun heq => by
      rw [heq, ← magnitude_place hs hks] at hmagnitude
      exact hq (f.magnitude_strictMono.injective hmagnitude)
    have heven : (k * twoTo f.fractionBits + s) % 2 = s % 2 := by
      have hunit : twoTo f.fractionBits % 2 = 0 :=
        Nat.mod_eq_zero_of_dvd (dvd_pow_self 2 hf.fraction.ne')
      rw [Nat.add_mod, Nat.mul_mod, hunit, Nat.mul_zero, Nat.zero_mod, Nat.zero_add, Nat.mod_mod]
    rw [hmagnitude, hdistance, heven]
    rcases ht.2 _ (Set.mem_univ _) hne with hlt | ⟨heq, hparity⟩
    · exact Or.inl (mul_lt_mul_of_pos_right hlt hpos)
    · exact Or.inr ⟨congrArg (· * _) heq, hparity⟩

/-- **Rounding at a place** finds the nearest number of the format. -/
theorem isNearest_min (hf : f.IsProper) (ht : IsNearestNat t s)
    (hk : k = 0 ∨ (twoTo f.fractionBits : ℚ) ≤ t) (hs : s ≤ 2 * twoTo f.fractionBits) :
    IsNearest (Set.Iic f.infinitePattern) f.magnitude (t * 2 ^ (f.leastExponent + k))
      (min (k * twoTo f.fractionBits + s) f.infinitePattern) := by
  rcases Nat.lt_or_ge f.infinitePattern (k * twoTo f.fractionBits + s) with hlarge | hsmall
  · have hle := magnitude_infinitePattern_le hf ht hk hs hlarge
    rw [Nat.min_eq_right hlarge.le]
    refine ⟨Set.mem_Iic.mpr le_rfl, fun q hq hne => Or.inl ?_⟩
    have hlt := f.magnitude_strictMono (lt_of_le_of_ne (Set.mem_Iic.mp hq) hne)
    rw [abs_of_nonneg (by linarith), abs_of_nonneg (by linarith)]
    linarith
  · rw [Nat.min_eq_left hsmall]
    exact isNearest_place hf ht hk hs hsmall

end

/-- The place at which a number is rounded: that of its highest bit, as far as the fraction
reaches, but no lower than that of the least numbers. -/
def place (f : Format) (m : ℕ) (e : ℤ) : ℤ :=
  max (e + m.log2 - f.fractionBits) f.leastExponent

/-- The number in units of the place at which it is rounded, and what it is rounded to. -/
theorem isNearestNat_scaled (m : ℕ) (e place : ℤ) :
    IsNearestNat (m * 2 ^ (e - place))
      (if place ≤ e then m * twoTo (e - place).toNat else roundShift m (place - e).toNat) := by
  split
  · rename_i hle
    have hscaled : (m : ℚ) * 2 ^ (e - place) = (m * twoTo (e - place).toNat : ℕ) := by
      obtain ⟨d, hd⟩ := Int.eq_ofNat_of_zero_le (sub_nonneg.mpr hle)
      rw [hd, zpow_natCast, Int.toNat_natCast, Nat.cast_mul, cast_twoTo]
    rw [hscaled]
    exact isNearest_self Nat.strictMono_cast (Set.mem_univ _)
  · rename_i hlt
    have hscaled : (m : ℚ) * 2 ^ (e - place) = m / 2 ^ (place - e).toNat := by
      obtain ⟨d, hd⟩ := Int.eq_ofNat_of_zero_le (sub_nonneg.mpr (not_le.mp hlt).le)
      rw [hd, Int.toNat_natCast, ← neg_sub, hd, zpow_neg, zpow_natCast]
      rfl
    rw [hscaled]
    exact isNearestNat_roundShift m _

/-- In these units the number has as many bits as the fraction and one more, or fewer at the place
of the least numbers. -/
theorem scaled_bounds (f : Format) {m : ℕ} (hm : m ≠ 0) (e : ℤ) :
    (m : ℚ) * 2 ^ (e - f.place m e) < 2 * twoTo f.fractionBits ∧
      (f.leastExponent < f.place m e → (twoTo f.fractionBits : ℚ) ≤ m * 2 ^ (e - f.place m e)) := by
  have htwo : ∀ z : ℤ, (0 : ℚ) < 2 ^ z := fun z => by positivity
  have hunit : (twoTo f.fractionBits : ℚ) = 2 ^ (f.fractionBits : ℤ) := by
    rw [zpow_natCast, cast_twoTo]
  have hlower : ((2 : ℚ) ^ (m.log2 : ℤ)) ≤ m := by
    rw [zpow_natCast]
    exact_mod_cast (Nat.le_log2 hm).mp le_rfl
  have hupper : (m : ℚ) < 2 ^ ((m.log2 : ℤ) + 1) := by
    rw [zpow_add_one₀ two_ne_zero, zpow_natCast, ← pow_succ]
    exact_mod_cast (Nat.log2_lt hm).mp (Nat.lt_succ_self _)
  constructor
  · have hexponent : (m.log2 : ℤ) + 1 + (e - f.place m e) ≤ f.fractionBits + 1 := by
      have hplace := le_max_left (e + m.log2 - f.fractionBits) f.leastExponent
      rw [← place] at hplace
      omega
    calc (m : ℚ) * 2 ^ (e - f.place m e)
        < 2 ^ ((m.log2 : ℤ) + 1) * 2 ^ (e - f.place m e) :=
          mul_lt_mul_of_pos_right hupper (htwo _)
      _ = 2 ^ ((m.log2 : ℤ) + 1 + (e - f.place m e)) := (zpow_add₀ two_ne_zero _ _).symm
      _ ≤ 2 ^ ((f.fractionBits : ℤ) + 1) := zpow_le_zpow_right₀ one_le_two hexponent
      _ = 2 * twoTo f.fractionBits := by rw [zpow_add_one₀ two_ne_zero, hunit, mul_comm]
  · intro hlt
    -- The place is not the least one, so it is that of the highest bit.
    have hplace : e - f.place m e = f.fractionBits - m.log2 := by
      have hmax : f.place m e = e + m.log2 - f.fractionBits :=
        max_eq_left (le_of_not_ge fun hge => hlt.ne' (max_eq_right hge))
      omega
    calc (twoTo f.fractionBits : ℚ) = 2 ^ (m.log2 : ℤ) * 2 ^ (e - f.place m e) := by
          rw [← zpow_add₀ two_ne_zero, hplace, add_sub_cancel, hunit]
      _ ≤ m * 2 ^ (e - f.place m e) := mul_le_mul_of_nonneg_right hlower (htwo _).le

/-- **A pattern that is encoded** stands for the number of the format that is nearest. -/
theorem isNearest_encodeMagnitude (hf : f.IsProper) (m : ℕ) (e : ℤ) :
    IsNearest (Set.Iic f.infinitePattern) f.magnitude (m * 2 ^ e) (f.encodeMagnitude m e) := by
  rcases Nat.eq_zero_or_pos m with rfl | hm
  · have hzero : f.magnitude 0 = 0 := by simp [magnitude]
    rw [Nat.cast_zero, zero_mul, ← hzero]
    exact isNearest_self f.magnitude_strictMono (Nat.zero_le _)
  · obtain ⟨hupper, hlower⟩ := f.scaled_bounds hm.ne' e
    obtain ⟨k, hk⟩ := Int.eq_ofNat_of_zero_le
      (sub_nonneg.mpr (le_max_right (e + m.log2 - f.fractionBits) f.leastExponent))
    rw [← place] at hk
    have hplace : f.place m e = f.leastExponent + k := by omega
    have hnearest := isNearestNat_scaled m e (f.place m e)
    have hnumber : (m : ℚ) * 2 ^ e =
        m * 2 ^ (e - f.place m e) * 2 ^ (f.leastExponent + k) := by
      rw [mul_assoc, ← zpow_add₀ two_ne_zero, ← hplace, sub_add_cancel]
    -- Encoding shifts to the place, rounds the ones there, and cuts off at infinity.
    have hencode : f.encodeMagnitude m e = min (k * twoTo f.fractionBits +
        if f.place m e ≤ e then m * twoTo (e - f.place m e).toNat
        else roundShift m (f.place m e - e).toNat) f.infinitePattern := by
      rw [encodeMagnitude, if_neg hm.ne', ← Int.toNat_natCast k, ← Int.ofNat_eq_natCast, ← hk]
      rfl
    rw [hnumber, hencode]
    refine isNearest_min hf hnearest ?_ (hnearest.le_of_ge ?_)
    · rcases Nat.eq_zero_or_pos k with hk | hk
      · exact Or.inl hk
      · exact Or.inr (hlower (by omega))
    · push_cast
      exact hupper.le

/-! ### Rounding decoded values -/

/-- The bit of a sign. -/
def signBit (f : Format) (negative : Bool) : ℕ :=
  if negative then twoTo (f.fractionBits + f.exponentBits) else 0

theorem twoTo_add_eq_mul (f : Format) :
    twoTo (f.fractionBits + f.exponentBits) = twoTo f.fractionBits * twoTo f.exponentBits :=
  Nat.pow_add 2 _ _

/-- The fields of a pattern behind a sign. -/
theorem fields_signBit (f : Format) (negative : Bool) {p : ℕ}
    (hp : p < twoTo (f.fractionBits + f.exponentBits)) :
    ((f.signBit negative + p) / twoTo (f.fractionBits + f.exponentBits) % 2 == 1) = negative ∧
      (f.signBit negative + p) / twoTo f.fractionBits % twoTo f.exponentBits =
        p / twoTo f.fractionBits ∧
      (f.signBit negative + p) % twoTo f.fractionBits = p % twoTo f.fractionBits := by
  have hunit : 0 < twoTo f.fractionBits := Nat.two_pow_pos _
  have hbits : 0 < twoTo (f.fractionBits + f.exponentBits) := Nat.two_pow_pos _
  have hfield : p / twoTo f.fractionBits < twoTo f.exponentBits := by
    rw [twoTo_add_eq_mul] at hp
    exact Nat.div_lt_of_lt_mul hp
  cases negative with
  | false =>
    simp only [signBit, Bool.false_eq_true, if_false, Nat.zero_add, Nat.div_eq_of_lt hp,
      Nat.mod_eq_of_lt hfield]
    exact ⟨rfl, trivial, trivial⟩
  | true =>
    -- The sign stands above the other fields, so these are what is left without it.
    simp only [signBit, if_true]
    refine ⟨?_, ?_, ?_⟩
    · rw [Nat.add_div_left _ hbits, Nat.div_eq_of_lt hp]
      rfl
    · rw [twoTo_add_eq_mul, Nat.mul_add_div hunit, Nat.add_mod_left, Nat.mod_eq_of_lt hfield]
    · rw [twoTo_add_eq_mul, Nat.mul_add_mod]

theorem infinitePattern_lt (f : Format) :
    f.infinitePattern < twoTo (f.fractionBits + f.exponentBits) := by
  have htop : f.topExponent < twoTo f.exponentBits := Nat.sub_lt (Nat.two_pow_pos _) one_pos
  rw [twoTo_add_eq_mul, Nat.mul_comm]
  exact Nat.mul_lt_mul_of_pos_right htop (Nat.two_pow_pos _)

/-- A pattern below the infinite one is read as the number it stands for. -/
theorem decode_signBit (f : Format) (negative : Bool) {p : ℕ} (hp : p < f.infinitePattern) :
    ∃ m e, f.decode (f.signBit negative + p) = .finite negative m e ∧
      (m : ℚ) * 2 ^ e = f.magnitude p := by
  obtain ⟨hsign, hfield, hfraction⟩ := f.fields_signBit negative (hp.trans f.infinitePattern_lt)
  have htop : p / twoTo f.fractionBits ≠ f.topExponent := fun heq => by
    have hle := Nat.div_mul_le_self p (twoTo f.fractionBits)
    rw [heq] at hle
    exact absurd hle (Nat.not_le.mpr hp)
  simp only [decode, magnitude, hsign, hfield, hfraction, if_neg htop]
  split
  · exact ⟨_, _, rfl, rfl⟩
  · exact ⟨_, _, rfl, rfl⟩

/-- The decoded value is what another one is rounded to: the nearest number of the format with the
same sign, or an infinity where that counts as nearest. What is no number stays as it is. -/
def Rounds (f : Format) : (exact rounded : Decoded) → Prop
  | .finite negative m e, d =>
    ∃ p, IsNearest (Set.Iic f.infinitePattern) f.magnitude (m * 2 ^ e) p ∧
      d = f.decode (f.signBit negative + p)
  | x, d => d = x

/-- **What is encoded is rounded**, and nothing else happens to it. -/
theorem rounds_encode (hf : f.IsProper) (negative : Bool) (m : ℕ) (e : ℤ) :
    f.Rounds (.finite negative m e) (f.decode (f.encode negative m e)) :=
  ⟨f.encodeMagnitude m e, isNearest_encodeMagnitude hf m e, rfl⟩

/-- A number of the format is rounded to itself. -/
theorem rounds_decode (f : Format) {bits : ℕ}
    (hbits : bits < 2 * twoTo (f.fractionBits + f.exponentBits)) :
    f.Rounds (f.decode bits) (f.decode bits) := by
  have hpos : 0 < twoTo (f.fractionBits + f.exponentBits) := Nat.two_pow_pos _
  obtain ⟨negative, p, hp, rfl⟩ : ∃ negative p, p < twoTo (f.fractionBits + f.exponentBits) ∧
      bits = f.signBit negative + p := by
    rcases Nat.lt_or_ge bits (twoTo (f.fractionBits + f.exponentBits)) with hlt | hge
    · exact ⟨false, bits, hlt, (Nat.zero_add bits).symm⟩
    · obtain ⟨p, rfl⟩ := Nat.exists_eq_add_of_le hge
      exact ⟨true, p, by omega, rfl⟩
  rcases Nat.lt_or_ge p f.infinitePattern with hlt | hge
  · -- A finite number is itself the nearest one.
    obtain ⟨m, e, hdecode, hmagnitude⟩ := f.decode_signBit negative hlt
    rw [hdecode]
    refine ⟨p, ?_, hdecode.symm⟩
    rw [hmagnitude]
    exact isNearest_self f.magnitude_strictMono hlt.le
  · -- From the infinite pattern on nothing is finite.
    obtain ⟨hsign, hfield, hfraction⟩ := f.fields_signBit negative hp
    have htop : p / twoTo f.fractionBits = f.topExponent := by
      have hfield : p / twoTo f.fractionBits < twoTo f.exponentBits := by
        rw [twoTo_add_eq_mul] at hp
        exact Nat.div_lt_of_lt_mul hp
      have hle := (Nat.le_div_iff_mul_le (Nat.two_pow_pos f.fractionBits)).mpr hge
      have htop : f.topExponent + 1 = twoTo f.exponentBits :=
        Nat.sub_add_cancel (Nat.two_pow_pos _)
      exact Nat.le_antisymm (by omega) hle
    simp only [decode, hfield, if_pos htop]
    split
    · rfl
    · rfl

theorem encode_lt (hf : f.IsProper) (negative : Bool) (m : ℕ) (e : ℤ) :
    f.encode negative m e < 2 * twoTo (f.fractionBits + f.exponentBits) := by
  have hle : f.encodeMagnitude m e ≤ f.infinitePattern := (isNearest_encodeMagnitude hf m e).1
  have hlt := f.infinitePattern_lt
  have hsign : f.signBit negative ≤ twoTo (f.fractionBits + f.exponentBits) := by
    cases negative
    · exact Nat.zero_le _
    · exact Nat.le_refl _
  show f.signBit negative + f.encodeMagnitude m e < _
  omega

end Format

/-! ### Formats of four and of eight bytes -/

theorem isProper_binary32 : binary32.IsProper :=
  ⟨by decide, by decide⟩

theorem isProper_binary64 : binary64.IsProper :=
  ⟨by decide, by decide⟩

/-- The bits of the float nearest to an integer of at most 64 bits are those that are encoded. -/
theorem toBits_floatOfInt_of_lt {i : Int} (hi : i.natAbs < 2 ^ 64) :
    (floatOfInt i).toBits.toNat = binary64.encode (i < 0) i.natAbs 0 := by
  have hfield : exponentField
      (binary64.encode (decide (i < 0)) i.natAbs 0).toUInt64.toNat ≠ 2047 :=
    exponentField_encode_ne hi
  rw [floatOfInt, floatOf, Format.pattern, toBits_ofBits hfield]
  exact Nat.mod_eq_of_lt (Format.encode_lt isProper_binary64 _ _ _)

/-- The bits of the float nearest to a 64-bit integer are those that are encoded. -/
theorem toBits_floatOfInt (i : Int64) :
    (floatOfInt i.toInt).toBits.toNat = binary64.encode (i.toInt < 0) i.toInt.natAbs 0 := by
  obtain ⟨lower, upper⟩ := fitsInt64_toInt i
  exact toBits_floatOfInt_of_lt (by omega)

/-- A float is rounded to its pattern of four bytes. -/
theorem rounds_narrowBits (x : Float) :
    binary32.Rounds (decodeFloat x) (binary32.decode (narrowBits x)) ∧ narrowBits x < 2 ^ 32 := by
  have hnan : binary32.decode (binary32.pattern .nan) = .nan := by decide +kernel
  have hinfinite : ∀ negative,
      binary32.decode (binary32.pattern (.infinite negative)) = .infinite negative := by
    decide +kernel
  rw [narrowBits]
  cases decodeFloat x with
  | nan => exact ⟨hnan, by decide +kernel⟩
  | infinite negative =>
    exact ⟨hinfinite negative, by cases negative <;> decide +kernel⟩
  | finite negative m e =>
    exact ⟨Format.rounds_encode isProper_binary32 negative m e,
      Format.encode_lt isProper_binary32 negative m e⟩

end NestedQuery.Number
