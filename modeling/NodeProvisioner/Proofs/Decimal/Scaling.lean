import NodeProvisioner.Decimal.Reading
import NodeProvisioner.Proofs.Decimal.Magnitudes

/-!
# Scaling within the range of floating-point numbers

A significand is scaled by a power of ten in three steps, each of which is rounded: the significand
becomes a double, the power becomes one, and they are multiplied. Each step makes the result larger
by a unit in the last place at most. So whatever stays a few units below the end of the range is
scaled to a number, and not to infinity.

What is told of a number here is a bound on it as a fraction (`IsUpTo`); by powers of two alone, as
in `IsWithin`, the end of the range could not be approached so closely.

Main statement: `isSome_scale?`.
-/

open Float.Model (UnpackedFloat Format totalExponent)
open Float.Model.UnpackedFloat

namespace NodeProvisioner.Decimal

/-- A finite number from zero on, and no larger than the fraction. -/
def IsUpTo (q : ℚ) : UnpackedFloat → Prop
  | .zero s => s = .positive
  | .finite s m e _ => s = .positive ∧ -1074 ≤ e ∧ (m : ℚ) * 2 ^ e ≤ q
  | _ => False

/-! ## Rounding -/

/-- The number of bits that rounding drops. -/
def dropped (m : Nat) (e : Int) : Nat := (max ((m.log2 : Int) + 1 + e - 53) (-1074) - e).toNat

/-- Rounding drops the bits for which there is no room, and adds one unit at most. The unit may be
one bit too many again. -/
theorem exists_round (m : Nat) (e : Int) : ∃ r, r ≤ m / 2 ^ dropped m e + 1 ∧
    (dropped m e = 0 → r = m) ∧
    roundWithAccuracy .binary64 .positive m e .exact =
      if h : r / 2 ^ dropped r (e + dropped m e) = 0 then .zero .positive
      else .finite .positive (r / 2 ^ dropped r (e + dropped m e))
        (e + dropped m e + dropped r (e + dropped m e)) (Nat.pos_of_ne_zero h) := by
  refine ⟨(ExtendedMantissa.ofMantissaAndAccuracy m .exact >>> dropped m e).roundedMantissa,
    ?_, fun none => ?_, ?_⟩
  · refine (roundedMantissa_le _).trans ?_
    rw [mantissa_shiftRight, mantissa_ofMantissaAndAccuracy]
  · rw [none]
    rfl
  · generalize same : (ExtendedMantissa.ofMantissaAndAccuracy m .exact
      >>> dropped m e).roundedMantissa = r
    have final : (ExtendedMantissa.ofMantissaAndAccuracy r .exact
        >>> dropped r (e + dropped m e)).mantissa = r / 2 ^ dropped r (e + dropped m e) := by
      rw [mantissa_shiftRight, mantissa_ofMantissaAndAccuracy]
    unfold roundWithAccuracy shiftToTargetExponent shiftToExponent
    simp only [targetExponent_eq, totalExponent]
    simp only [dropped] at same final ⊢
    simp only [same, final]
    rfl

theorem div_two_pow_mul_le (m k : Nat) (e : Int) :
    ((m / 2 ^ k : Nat) : ℚ) * 2 ^ (e + k) ≤ m * 2 ^ e := by
  have whole : ((m / 2 ^ k : Nat) : ℚ) * 2 ^ k ≤ m := by
    exact_mod_cast Nat.div_mul_le_self m (2 ^ k)
  calc ((m / 2 ^ k : Nat) : ℚ) * 2 ^ (e + k) = (m / 2 ^ k : Nat) * 2 ^ k * 2 ^ e := by
        rw [zpow_add₀ two_ne_zero, zpow_natCast]
        ring
    _ ≤ m * 2 ^ e := mul_le_mul_of_nonneg_right whole (by positivity)

/-- **Rounding makes a number larger by one part in `2 ^ 52` at most.** -/
theorem isUpTo_round {m : Nat} {e : Int} (low : -1074 ≤ e) :
    IsUpTo (m * 2 ^ e * (1 + 2 ^ (-52 : Int)))
      (roundWithAccuracy .binary64 .positive m e .exact) := by
  obtain ⟨r, le, exact, eq⟩ := exists_round m e
  rw [eq]
  generalize dropped r (e + dropped m e) = k'
  split
  · rfl
  · refine ⟨rfl, by omega, (div_two_pow_mul_le r k' _).trans ?_⟩
    have nonneg : (0 : ℚ) ≤ m * 2 ^ e := by positivity
    by_cases none : dropped m e = 0
    · rw [exact none, none, Nat.cast_zero, add_zero]
      exact le_mul_of_one_le_right nonneg (le_add_of_nonneg_right (by positivity))
    · -- where bits are dropped, just those above the unit in the last place are left
      have bits : (m.log2 : Int) = dropped m e + 52 := by
        unfold dropped at none ⊢
        omega
      have positive : m ≠ 0 := by
        rintro rfl
        rw [Nat.log2_zero] at bits
        omega
      have large : (2 : ℚ) ^ (dropped m e + 52) ≤ m := by
        rw [show dropped m e + 52 = m.log2 by omega]
        exact_mod_cast Nat.log2_self_le positive
      have unit : (2 : ℚ) ^ (e + dropped m e) ≤ m * 2 ^ e * 2 ^ (-52 : Int) := by
        calc (2 : ℚ) ^ (e + dropped m e)
            = 2 ^ (dropped m e + 52) * 2 ^ e * 2 ^ (-52 : Int) := by
              rw [← zpow_natCast, ← zpow_add₀ two_ne_zero, ← zpow_add₀ two_ne_zero]
              congr 1
              push_cast
              ring
          _ ≤ m * 2 ^ e * 2 ^ (-52 : Int) := by gcongr
      calc (r : ℚ) * 2 ^ (e + dropped m e)
          ≤ ((m / 2 ^ dropped m e : Nat) + 1) * 2 ^ (e + dropped m e) := by
            gcongr
            exact_mod_cast le
        _ = (m / 2 ^ dropped m e : Nat) * 2 ^ (e + dropped m e) + 2 ^ (e + dropped m e) := by ring
        _ ≤ m * 2 ^ e + m * 2 ^ e * 2 ^ (-52 : Int) :=
            add_le_add (div_two_pow_mul_le m _ e) unit
        _ = m * 2 ^ e * (1 + 2 ^ (-52 : Int)) := by ring

/-- The end of the range, less a unit. -/
def ceiling : Nat := (2 ^ 53 - 1) * 2 ^ 971

theorem cast_ceiling : (ceiling : ℚ) = (2 ^ 53 - 1 : Nat) * 2 ^ (971 : Int) := by
  rw [ceiling, Nat.cast_mul, Nat.cast_pow 2 971, Nat.cast_ofNat, ← zpow_natCast]
  rfl

theorem ceiling_lt : (ceiling : ℚ) < 2 ^ (1024 : Int) := by
  calc (ceiling : ℚ) = (2 ^ 53 - 1 : Nat) * 2 ^ (971 : Int) := cast_ceiling
    _ < 2 ^ (53 : Int) * 2 ^ (971 : Int) := by
      refine mul_lt_mul_of_pos_right ?_ (by positivity)
      norm_num
    _ = 2 ^ (1024 : Int) := by rw [← zpow_add₀ two_ne_zero]; rfl

theorem log2_add_le {m : Nat} (positive : m ≠ 0) {e : Int} (below : (m : ℚ) * 2 ^ e < ceiling) :
    (m.log2 : Int) + e ≤ 1023 := by
  have large : (2 : ℚ) ^ m.log2 ≤ m := by exact_mod_cast Nat.log2_self_le positive
  have power : (2 : ℚ) ^ ((m.log2 : Int) + e) < 2 ^ (1024 : Int) := by
    calc (2 : ℚ) ^ ((m.log2 : Int) + e) = 2 ^ m.log2 * 2 ^ e := by
          rw [zpow_add₀ two_ne_zero, zpow_natCast]
      _ ≤ m * 2 ^ e := by gcongr
      _ < 2 ^ (1024 : Int) := below.trans ceiling_lt
  have := (zpow_lt_zpow_iff_right₀ (one_lt_two (α := ℚ))).mp power
  omega

/-- **What is below the end of the range is rounded to a number.** -/
theorem isWithin_round_of_lt {m : Nat} {e : Int} (unit : e ≤ 971)
    (below : (m : ℚ) * 2 ^ e < ceiling) :
    IsWithin 971 (roundWithAccuracy .binary64 .positive m e .exact) := by
  obtain ⟨r, le, exact, eq⟩ := exists_round m e
  rw [eq]
  have bits : (m.log2 : Int) + e ≤ 1023 := by
    by_cases positive : m = 0
    · rw [positive, Nat.log2_zero]
      omega
    · exact log2_add_le positive below
  have first : e + dropped m e ≤ 971 := by
    unfold dropped
    omega
  have short : m / 2 ^ dropped m e < 2 ^ 53 := by
    refine Nat.div_lt_of_lt_mul ?_
    rw [← Nat.pow_add]
    refine Nat.lt_of_lt_of_le Nat.lt_log2_self (Nat.pow_le_pow_right (by decide) ?_)
    unfold dropped
    omega
  -- only just below the end can rounding up make the unit too large, and this is excluded
  have shorter : e + dropped m e = 971 → m / 2 ^ dropped m e < 2 ^ 53 - 1 := by
    intro last
    have value := (div_two_pow_mul_le m (dropped m e) e).trans_lt below
    rw [last, cast_ceiling] at value
    exact Nat.cast_lt.mp (lt_of_mul_lt_mul_right value (by positivity))
  have size : (r.log2 : Int) + 1 + (e + dropped m e) - 53 ≤ 971 := by
    by_cases last : e + dropped m e = 971
    · have := shorter last
      have := log2_le (k := 52) (show r < 2 ^ 53 by omega)
      omega
    · have := log2_le (k := 53) (show r < 2 ^ 54 by omega)
      omega
  refine isWithin_mantissa ?_ _
  unfold dropped at first size ⊢
  omega

/-- A number that has just the bits there is room for is not changed by rounding. -/
theorem round_of_long {m : Nat} {e : Int} (bits : m.log2 = 52) (low : -1074 ≤ e)
    (pos : 0 < m) :
    roundWithAccuracy .binary64 .positive m e .exact = .finite .positive m e pos := by
  have none : dropped m e = 0 := by
    unfold dropped
    omega
  obtain ⟨r, _, exact, eq⟩ := exists_round m e
  obtain rfl := exact none
  rw [eq]
  simp only [none, Nat.cast_zero, Int.add_zero, Nat.pow_zero, Nat.div_one]
  exact dif_neg (by omega)

/-! ## Packing -/

/-- The field of an exponent that is in range. -/
theorem toNat_biased {e : Int} (low : -1074 ≤ e) (high : e ≤ 971) :
    (BitVec.ofNat 11 (e + Format.binary64.exponentBias + (52 : Nat)).toNat).toNat
      = (e + 1075).toNat := by
  have biased : (e + Format.binary64.exponentBias + (52 : Nat)).toNat = (e + 1075).toNat := by
    change (e + (1023 : Nat) + (52 : Nat)).toNat = _
    omega
  rw [biased, BitVec.toNat_ofNat, Nat.mod_eq_of_lt (by omega)]

/-- A number that has just the bits there is room for is not changed by packing. -/
theorem unpack_pack_of_long {m : Nat} {e : Int} (bits : m.log2 = 52) (low : -1074 ≤ e)
    (high : e ≤ 971) (pos : 0 < m) :
    (Float.Model.pack (.finite .positive m e pos)).unpack = .finite .positive m e pos := by
  have least := Nat.log2_self_le (Nat.ne_of_gt pos)
  have most := Nat.lt_log2_self (n := m)
  rw [bits] at least most
  have field := toNat_biased low high
  have sign : Sign.ofBitVec (Sign.positive.toBitVec) = .positive := rfl
  change UnpackedFloat.unpack .binary64 (UnpackedFloat.pack .binary64 _) = _
  simp only [UnpackedFloat.pack]
  split_ifs with large long
  · change 2048 ≤ (e + (1023 : Nat) + (52 : Nat)).toNat + 1 at large
    omega
  · simp only [UnpackedFloat.unpack, sign_packComponents, sign, unpackExponent_packComponents,
      unpackMantissa_packComponents]
    generalize BitVec.ofNat 11 (e + Format.binary64.exponentBias + (52 : Nat)).toNat = biased
      at field
    have finite : biased ≠ -1#11 := by
      rintro rfl
      have field : 2047 = (e + 1075).toNat := field
      omega
    have normal : biased ≠ 0#11 := by
      rintro rfl
      have field : 0 = (e + 1075).toNat := field
      omega
    rw [if_neg finite, if_neg normal, UnpackedFloat.finite.injEq]
    refine ⟨rfl, ?_, ?_⟩
    · rw [toNat_leading, BitVec.toNat_ofNat]
      change 2 ^ 52 + m % 2 ^ 52 = m
      omega
    · change (biased.toNat : Int) - 1075 = e
      omega
  · exact absurd (congrArg (· + 1) bits) long

/-- A mantissa that is not long is kept as it is, but with the least unit. -/
theorem isUpTo_unpack {q : ℚ} {m : BitVec 52} (le : (m.toNat : ℚ) * 2 ^ (-1074 : Int) ≤ q) :
    IsUpTo q (UnpackedFloat.unpack .binary64 (packComponents .binary64 .positive 0#11 m)) := by
  have sign : Sign.ofBitVec (Sign.positive.toBitVec) = .positive := rfl
  simp only [UnpackedFloat.unpack, sign_packComponents, sign, unpackExponent_packComponents,
    unpackMantissa_packComponents]
  rw [if_neg (by decide), if_pos trivial]
  split_ifs
  · rfl
  · exact ⟨rfl, by decide, le⟩

/-- **Packing does not make a number larger.** -/
theorem IsUpTo.repacked {f : UnpackedFloat} {q : ℚ} (h : IsUpTo q f) (within : IsWithin 971 f) :
    IsUpTo q (Float.Model.pack f).unpack := by
  match f, h, within with
  | .zero _, rfl, _ => rfl
  | .finite _ m e pos, ⟨rfl, low, le⟩, ⟨_, high⟩ =>
    by_cases long : m.log2 = 52
    · rw [unpack_pack_of_long long low high]
      exact ⟨rfl, low, le⟩
    · change IsUpTo q (UnpackedFloat.unpack .binary64 (UnpackedFloat.pack .binary64 _))
      simp only [UnpackedFloat.pack]
      split_ifs with large same
      · change 2048 ≤ (e + (1023 : Nat) + (52 : Nat)).toNat + 1 at large
        omega
      · exact absurd (Nat.succ.inj same) long
      · refine isUpTo_unpack (le_trans ?_ le)
        have unit : (2 : ℚ) ^ (-1074 : Int) ≤ 2 ^ e := zpow_le_zpow_right₀ one_le_two low
        gcongr
        exact Nat.mod_le m _

/-! ## Significands -/

theorem log2_shiftLeft_of_lt {n : Nat} (pos : n ≠ 0) (small : n < 2 ^ 53) :
    (n <<< (52 - n.log2)).log2 = 52 := by
  have bits := log2_le (k := 52) small
  have least := Nat.log2_self_le pos
  have most := Nat.lt_log2_self (n := n)
  have pos' : n <<< (52 - n.log2) ≠ 0 := by
    rw [Nat.shiftLeft_eq]
    positivity
  refine (Nat.log2_eq_iff pos').mpr ?_
  rw [Nat.shiftLeft_eq]
  constructor
  · calc 2 ^ 52 = 2 ^ n.log2 * 2 ^ (52 - n.log2) := by rw [← Nat.pow_add]; congr 1; omega
      _ ≤ n * 2 ^ (52 - n.log2) := Nat.mul_le_mul_right _ least
  · calc n * 2 ^ (52 - n.log2) < 2 ^ (n.log2 + 1) * 2 ^ (52 - n.log2) :=
          Nat.mul_lt_mul_of_pos_right most (Nat.two_pow_pos _)
      _ = 2 ^ (52 + 1) := by rw [← Nat.pow_add]; congr 1; omega

/-- A small natural number is the same number as a double. -/
theorem unpack_toFloat {n : Nat} (pos : 0 < n <<< (52 - n.log2)) (small : n < 2 ^ 53) :
    n.toUInt64.toFloat.toModel.unpack = .finite .positive (n <<< (52 - n.log2))
      (-((52 - n.log2 : Nat) : Int)) pos := by
  have ne : n ≠ 0 := by
    rintro rfl
    rw [Nat.zero_shiftLeft] at pos
    exact absurd pos (Nat.lt_irrefl 0)
  have same : n.toUInt64.toNat = n := Nat.mod_eq_of_lt (Nat.lt_trans small (by decide))
  have bits := log2_le (k := 52) small
  have long := log2_shiftLeft_of_lt ne small
  have normalized : UnpackedFloat.normalize .binary64 (n.toUInt64.toNat : Int) 0 .positive
      = .finite .positive (n <<< (52 - n.log2)) (-((52 - n.log2 : Nat) : Int)) pos := by
    rw [same]
    unfold UnpackedFloat.normalize
    split
    · rename_i below
      rw [Int.compare_eq_lt] at below
      omega
    · rename_i zero
      rw [Int.compare_eq_eq] at zero
      omega
    · unfold UnpackedFloat.round decreaseExponent
      simp only [targetExponent_eq, totalExponent, Int.toNat_natCast]
      rw [show ((0 : Int) - max ((n.log2 : Int) + 1 + 0 - 53) (-1074)).toNat = 52 - n.log2 by omega,
        Int.zero_sub]
      exact round_of_long long (by omega) pos
  change (Float.Model.pack (UnpackedFloat.normalize .binary64 (n.toUInt64.toNat : Int) 0
    .positive)).unpack = _
  rw [normalized, unpack_pack_of_long long (by omega) (by omega)]

theorem isUpTo_of_round {x : Float} {m : Nat} {e : Int} {q : ℚ}
    (eq : x.toModel = .pack (roundWithAccuracy .binary64 .positive m e .exact))
    (low : -1074 ≤ e) (high : e ≤ 971) (value : (m : ℚ) * 2 ^ e = q) (below : q < ceiling) :
    IsUpTo (q * (1 + 2 ^ (-52 : Int))) x.toModel.unpack := by
  rw [eq, ← value]
  exact (isUpTo_round low).repacked (isWithin_round_of_lt high (value ▸ below))

/-- **A natural number becomes larger by one part in `2 ^ 52` at most.** -/
theorem isUpTo_ofNat {n : Nat} (below : (n : ℚ) < ceiling) :
    IsUpTo (n * (1 + 2 ^ (-52 : Int))) (Float.ofNat n).toModel.unpack := by
  by_cases zero : n = 0
  · subst zero
    exact (rfl : Sign.positive = Sign.positive)
  by_cases small : n < 2 ^ 53
  · have pos : 0 < n <<< (52 - n.log2) := by
      rw [Nat.shiftLeft_eq]
      positivity
    have product : (Float.ofNat n).toModel = .pack (UnpackedFloat.mul .binary64
        n.toUInt64.toFloat.toModel.unpack (Float.ofBits 0x3FF0000000000000).toModel.unpack) :=
      congrArg Float.toModel (ofNat_of_lt small)
    rw [unpack_toFloat pos small, unpack_one] at product
    refine isUpTo_of_round product (by omega) (by omega) ?_ below
    rw [Nat.shiftLeft_eq, Nat.cast_mul, Nat.cast_mul, Nat.cast_pow, Nat.cast_pow, Nat.cast_ofNat,
      ← zpow_natCast, ← zpow_natCast, mul_assoc, mul_assoc, ← zpow_add₀ two_ne_zero,
      ← zpow_add₀ two_ne_zero, show ((52 - n.log2 : Nat) : Int) + (((52 : Nat) : Int)
        + (-((52 - n.log2 : Nat) : Int) + -52)) = 0 by omega, zpow_zero, mul_one]
  · refine isUpTo_of_round (ofNat_of_le (Nat.not_lt.mp small)) (by decide) (by decide) ?_ below
    rw [Nat.mul_one, Nat.shiftLeft_eq, Nat.cast_mul, Nat.cast_pow, Nat.cast_ofNat,
      ← zpow_natCast (2 : ℚ) 53, mul_assoc, ← zpow_add₀ two_ne_zero]
    exact mul_one _

/-! ## Powers of ten -/

/-- What is scaled to a number for certain: what lies below the end of the range by some units. -/
def reachable : Nat := 2 ^ 1024 - 9 * 2 ^ 970

/-- The power of ten may be rounded up, but what is reachable stays below the end even so. -/
def IsModest (k : Nat) : UnpackedFloat → Bool
  | .finite .positive m e _ => decide (2 ^ 52 ≤ m ∧ -52 ≤ e ∧ e ≤ 971 ∧
      reachable * (2 ^ 52 + 1) * m * 2 ^ (e + 52).toNat < ceiling * 10 ^ k * 2 ^ 104)
  | _ => false

theorem isModest_powerOfTen : ∀ k ∈ List.range 309,
    IsModest k (powerOfTen k).toModel.unpack = true := by
  decide +kernel

theorem exists_powerOfTen {k : Nat} (le : k ≤ 308) : ∃ m e pos,
    (powerOfTen k).toModel.unpack = .finite .positive m e pos ∧ 2 ^ 52 ≤ m ∧ e ≤ 971 ∧
      (reachable : ℚ) * (1 + 2 ^ (-52 : Int)) * (m * 2 ^ e) < ceiling * 10 ^ k := by
  have modest := isModest_powerOfTen k (List.mem_range.mpr (by omega))
  generalize (powerOfTen k).toModel.unpack = f at modest
  match f, modest with
  | .finite .positive m e pos, modest =>
    obtain ⟨long, low, high, below⟩ := of_decide_eq_true modest
    refine ⟨m, e, pos, rfl, long, high, ?_⟩
    have cast : (reachable : ℚ) * (2 ^ 52 + 1) * m * 2 ^ (e + 52).toNat
        < ceiling * 10 ^ k * 2 ^ 104 := by exact_mod_cast below
    have power : (2 : ℚ) ^ (e + 52).toNat = 2 ^ e * 2 ^ 52 := by
      rw [← zpow_natCast, Int.toNat_of_nonneg (by omega), zpow_add₀ two_ne_zero]
      rfl
    have unit : (1 + 2 ^ (-52 : Int) : ℚ) * 2 ^ 52 = 2 ^ 52 + 1 := by
      rw [add_mul, one_mul, ← zpow_natCast, ← zpow_add₀ two_ne_zero]
      rfl
    rw [power, ← unit] at cast
    generalize (1 + 2 ^ (-52 : Int) : ℚ) = factor at cast ⊢
    refine lt_of_mul_lt_mul_right (lt_of_eq_of_lt ?_ cast) (by positivity : (0 : ℚ) ≤ 2 ^ 104)
    ring

/-! ## Products -/

/-- The product of two numbers is a number, if it is below the end of the range. -/
theorem isWithin_mul_of_lt {f : UnpackedFloat} {q : ℚ} (le : IsUpTo q f) (long : IsLong f)
    {m' : Nat} {e' : Int} {pos : 0 < m'} (long' : 2 ^ 52 ≤ m') (high : e' ≤ 971)
    (below : q * (m' * 2 ^ e') < ceiling) :
    IsWithin 971 (mul .binary64 f (.finite .positive m' e' pos)) := by
  match f, le with
  | .zero _, rfl => rfl
  | .finite _ m e _, ⟨rfl, _, le⟩ =>
    have value : ((m * m' : Nat) : ℚ) * 2 ^ (e + e') < ceiling := by
      calc ((m * m' : Nat) : ℚ) * 2 ^ (e + e') = m * 2 ^ e * (m' * 2 ^ e') := by
            rw [zpow_add₀ two_ne_zero, Nat.cast_mul]
            ring
        _ ≤ q * (m' * 2 ^ e') := by gcongr
        _ < ceiling := below
    refine isWithin_round_of_lt ?_ value
    have long : 2 ^ 52 ≤ m ∨ e = -1074 := long
    rcases long with long | rfl
    · have bits := log2_add_le (Nat.ne_of_gt (Nat.mul_pos ‹_› pos)) value
      have large : 104 ≤ (m * m').log2 :=
        (Nat.le_log2 (Nat.ne_of_gt (Nat.mul_pos ‹_› pos))).mpr (by
          rw [show 104 = 52 + 52 by rfl, Nat.pow_add]
          exact Nat.mul_le_mul long long')
      omega
    · omega

theorem not_isInf_of_isWithin {x : Float} {bound : Int} (h : IsWithin bound x.toModel.unpack) :
    x.isInf = false := by
  change x.toModel.unpack.isInf = false
  generalize x.toModel.unpack = f at h
  cases f with
  | infinity => cases h
  | _ => rfl

/-- What holds of the largest number holds of a smaller one, taken to another scale. -/
theorem mul_lt_of_scaled {n most power factor part bound : ℚ} (pos : 0 < power)
    (nonneg : 0 ≤ factor) (nonneg' : 0 ≤ part) (le : n * power ≤ most)
    (below : most * factor * part < bound * power) : n * factor * part < bound := by
  refine lt_of_mul_lt_mul_right ?_ pos.le
  calc n * factor * part * power = n * power * factor * part := by ring
    _ ≤ most * factor * part := by gcongr
    _ < bound * power := below

theorem reachable_lt_ceiling : reachable < ceiling := by decide +kernel

theorem reachable_lt_power : reachable < 10 ^ 309 := by decide +kernel

/-- **What is reachable is scaled to a number.** -/
theorem isSome_scale? {n : Nat} {k : Int} (h : (n : ℚ) * 10 ^ k ≤ reachable) :
    (scale? (Float.ofNat n) k).isSome = true := by
  cases k with
  | negSucc _ => rfl
  | ofNat k =>
    have scaled : (n : ℚ) * 10 ^ k ≤ reachable := by
      rw [← zpow_natCast]
      exact h
    have le : n * 10 ^ k ≤ reachable := by exact_mod_cast scaled
    simp only [scale?]
    split
    · rename_i small
      obtain ⟨m', e', pos, eq, long, high, modest⟩ := exists_powerOfTen small
      have power : (0 : ℚ) < 10 ^ k := by positivity
      have factor : (0 : ℚ) ≤ 1 + 2 ^ (-52 : Int) := by positivity
      have part : (0 : ℚ) ≤ m' * 2 ^ e' :=
        mul_nonneg m'.cast_nonneg (zpow_nonneg zero_le_two e')
      have below := mul_lt_of_scaled power factor part scaled modest
      have whole : n < ceiling := Nat.lt_of_le_of_lt
        (Nat.le_trans (Nat.le_mul_of_pos_right n (Nat.pow_pos (by decide))) le) reachable_lt_ceiling
      have product : IsWithin 971 (mul .binary64 (Float.ofNat n).toModel.unpack
          (.finite .positive m' e' pos)) :=
        isWithin_mul_of_lt (isUpTo_ofNat (Nat.cast_lt.mpr whole)) (isLong_unpack _) long high below
      rw [← eq] at product
      have within : IsWithin 971 (Float.ofNat n * powerOfTen k).toModel.unpack :=
        product.repacked (by decide) (by decide)
      rw [not_isInf_of_isWithin within]
      rfl
    · rename_i large
      by_cases zero : n = 0
      · subst zero
        rfl
      · -- any other number is too large to be reachable
        have most := Nat.le_trans (Nat.le_mul_of_pos_left (10 ^ k) (Nat.pos_of_ne_zero zero)) le
        have few := (Nat.pow_lt_pow_iff_right (by decide)).mp
          (Nat.lt_of_le_of_lt most reachable_lt_power)
        exact absurd (Nat.le_of_lt_succ few) large

end NodeProvisioner.Decimal
