import NodeProvisioner.Proofs.Decimal.Scaling
import NodeProvisioner.Proofs.Json.Floats

/-!
# Printed floating-point numbers are in range

A reader takes the first digits of a number and scales them by a power of ten, which could lead out
of the range if the number is large. The shortest decimal of a double is no further from it than
half a unit in the last place, so that all but the four largest doubles have decimals that are
scaled to a number for certain. The texts of these four are looked at one by one.

Main statement: `floatChars_reads`.
-/

namespace NodeProvisioner.Decimal

/-! ## The size of the shortest decimal -/

/-- The number that a decimal is. -/
def Scaled.value (d : Scaled) : ℚ := d.digits * 10 ^ d.exponent

theorem Scaled.Pads.value_eq {d padded : Scaled} (h : d.Pads padded) :
    padded.value = d.value := by
  obtain ⟨zeros, digits, exponent⟩ := h
  rw [Scaled.value, Scaled.value, digits, exponent, Nat.cast_mul, Nat.pow_eq, Nat.cast_pow,
    Nat.cast_ofNat, mul_assoc, ← zpow_natCast, ← zpow_add₀ (by norm_num)]
  congr 2
  omega

/-- A decimal that rounds to a number is no larger than the middle between it and the next. -/
theorem Neighbourhood.value_mul_le {n : Neighbourhood} {d : Scaled} (h : n.contains d = true) :
    d.value * n.denominator ≤ n.high := by
  have le : d.digits * Nat.pow 10 d.exponent.toNat * n.denominator
      ≤ n.high * Nat.pow 10 (-d.exponent).toNat := by
    unfold Neighbourhood.contains Scaled.over at h
    simp only at h
    split at h
    · exact of_decide_eq_true (Bool.and_eq_true_iff.mp h).2
    · exact (of_decide_eq_true (Bool.and_eq_true_iff.mp h).2 : _ < _).le
  have cast : (d.digits : ℚ) * 10 ^ d.exponent.toNat * n.denominator
      ≤ n.high * 10 ^ (-d.exponent).toNat := by exact_mod_cast le
  have parts : (10 : ℚ) ^ d.exponent * 10 ^ (-d.exponent).toNat = 10 ^ d.exponent.toNat := by
    rw [← zpow_natCast, ← zpow_natCast, ← zpow_add₀ (by norm_num)]
    congr 1
    omega
  refine le_of_mul_le_mul_right ?_ (by positivity : (0 : ℚ) < 10 ^ (-d.exponent).toNat)
  calc d.value * n.denominator * 10 ^ (-d.exponent).toNat
      = d.digits * (10 ^ d.exponent * 10 ^ (-d.exponent).toNat) * n.denominator := by
        rw [Scaled.value]
        ring
    _ ≤ n.high * 10 ^ (-d.exponent).toNat := by
        rw [parts]
        exact cast

theorem Neighbourhood.high_ofBinary (mantissa : Nat) (exponent : Int) :
    ((ofBinary mantissa exponent).high : ℚ)
      = (2 * mantissa + 1 : Nat) * 2 ^ (exponent - 1) * (ofBinary mantissa exponent).denominator := by
  have scale : (2 : ℚ) ^ exponent.toNat = 2 ^ exponent * 2 ^ (-exponent).toNat := by
    rw [← zpow_natCast, ← zpow_natCast, ← zpow_add₀ two_ne_zero]
    congr 1
    omega
  simp only [ofBinary, Nat.shiftLeft_eq]
  push_cast
  rw [zpow_sub_one₀ two_ne_zero, one_mul, scale]
  ring

/-- **The shortest decimal of a double is no further above it than half a unit.** -/
theorem value_shortest_le (mantissa : Nat) (exponent : Int) :
    (shortest mantissa exponent).value ≤ (2 * mantissa + 1 : Nat) * 2 ^ (exponent - 1) := by
  obtain zero | ⟨ne, d, contained, pads⟩ := shortest_cases mantissa exponent
  · rw [zero, Scaled.value, Nat.cast_zero, zero_mul]
    positivity
  · rw [← pads.value_eq]
    have pos : (0 : ℚ) < (Neighbourhood.ofBinary mantissa exponent).denominator := by
      simp only [Neighbourhood.ofBinary, Nat.shiftLeft_eq]
      positivity
    refine le_of_mul_le_mul_right ?_ pos
    exact (Neighbourhood.value_mul_le contained).trans (Neighbourhood.high_ofBinary _ _).le

theorem cast_reachable : (reachable : ℚ) = (2 ^ 54 - 9 : Nat) * 2 ^ (970 : Int) := by
  have split : reachable = (2 ^ 54 - 9) * 2 ^ 970 := by decide +kernel
  rw [split, Nat.cast_mul, Nat.cast_pow 2 970, Nat.cast_ofNat, ← zpow_natCast]
  rfl

/-- All but the four largest doubles have decimals that are scaled to a number. -/
theorem value_shortest_le_reachable {mantissa : Nat} {exponent : Int}
    (short : mantissa < 2 ^ 53) (high : exponent ≤ 971)
    (below : exponent = 971 → mantissa < 2 ^ 53 - 4) :
    (shortest mantissa exponent).value ≤ reachable := by
  refine (value_shortest_le mantissa exponent).trans ?_
  rw [cast_reachable]
  by_cases last : exponent = 971
  · have le := below last
    rw [last, show (971 - 1 : Int) = 970 by rfl]
    gcongr
    omega
  · calc ((2 * mantissa + 1 : Nat) : ℚ) * 2 ^ (exponent - 1)
        ≤ ((2 ^ 54 - 9) * 2 : Nat) * 2 ^ (969 : Int) := by
          gcongr
          · omega
          · exact one_le_two
          · omega
      _ = (2 ^ 54 - 9 : Nat) * 2 ^ (970 : Int) := by
          rw [show (970 : Int) = 969 + 1 by rfl, zpow_add_one₀ two_ne_zero, Nat.cast_mul]
          ring

/-- The fields of a double. -/
theorem Double.ofFloat_finite {x : Float} {negative : Bool} {mantissa : Nat} {exponent : Int}
    (h : Double.ofFloat x = .finite negative mantissa exponent) :
    mantissa < 2 ^ 53 ∧ exponent ≤ 971 := by
  unfold Double.ofFloat Double.ofBits at h
  simp only at h
  have field := Nat.mod_lt (x.toBits.toNat >>> 52) (show 1 <<< 11 > 0 by decide)
  have fraction := Nat.mod_lt x.toBits.toNat (show 1 <<< 52 > 0 by decide)
  generalize x.toBits.toNat >>> 52 % 1 <<< 11 = biased at h field
  generalize x.toBits.toNat % 1 <<< 52 = rest at h fraction
  split at h
  · split at h <;> cases h
  · split at h <;> cases h <;> omega

/-- The leading digit of a small decimal does not stand far to the left. -/
theorem Scaled.leading_lt {d : Scaled} (normal : d.IsNormal) {bound : Nat} (pos : 0 < bound)
    (below : d.value < 10 ^ bound) : d.leading < bound := by
  obtain positive | rfl := normal
  · have some : 0 < (Nat.toDigits 10 d.digits).length := List.length_pos_iff.mpr Nat.toDigits_ne_nil
    have long : 10 ^ ((Nat.toDigits 10 d.digits).length - 1) ≤ d.digits := by
      by_cases one : (Nat.toDigits 10 d.digits).length = 1
      · rw [one]
        exact positive
      · by_contra short
        have fewer := (Nat.length_toDigits_le_iff (by decide : 1 < 10) (by omega)).mpr
          (Nat.not_le.mp short)
        omega
    have power : (10 : ℚ) ^ d.leading < 10 ^ (bound : Int) := by
      calc (10 : ℚ) ^ d.leading
          = (10 ^ ((Nat.toDigits 10 d.digits).length - 1) : Nat) * 10 ^ d.exponent := by
            rw [Nat.cast_pow, Nat.cast_ofNat, ← zpow_natCast, ← zpow_add₀ (by norm_num),
              Scaled.leading]
            congr 1
            omega
        _ ≤ d.value := by
            rw [Scaled.value]
            gcongr
        _ < 10 ^ (bound : Int) := by
            rw [zpow_natCast]
            exact below
    exact (zpow_lt_zpow_iff_right₀ (by norm_num)).mp power
  · exact Int.natCast_pos.mpr pos

/-- The leading digit of a double is that of no more than the largest one. -/
theorem leading_shortest_lt {mantissa : Nat} {exponent : Int} (short : mantissa < 2 ^ 53)
    (high : exponent ≤ 971) : (shortest mantissa exponent).leading < 309 := by
  refine Scaled.leading_lt (isNormal_shortest mantissa exponent) (by decide) ?_
  calc (shortest mantissa exponent).value
      ≤ (2 * mantissa + 1 : Nat) * 2 ^ (exponent - 1) := value_shortest_le _ _
    _ ≤ (2 ^ 54 : Nat) * 2 ^ (970 : Int) := by
        gcongr
        · omega
        · exact one_le_two
        · omega
    _ < 10 ^ 309 := by
        rw [show (970 : Int) = (970 : Nat) by rfl, zpow_natCast]
        exact_mod_cast (by decide +kernel : 2 ^ 54 * 2 ^ 970 < 10 ^ 309)

end NodeProvisioner.Decimal

namespace NodeProvisioner.Json

open Decimal

/-! ## Reading a number -/

theorem clip_go_le (n : Nat) (digits : List Char) :
    (clip.go n digits).1 * Nat.pow 10 (clip.go n digits).2 ≤ Nat.ofDigitChars 10 digits n := by
  induction digits generalizing n with
  | nil => exact (Nat.mul_one n).le
  | cons c rest ih =>
    rw [clip.go]
    split
    · exact ih _
    · rw [Nat.ofDigitChars_eq_ofDigitChars_zero, List.length_cons, Nat.mul_comm]
      exact Nat.le_add_right _ _

/-- What is left of digits, with zeros for those that are dropped, is no larger than they are. -/
theorem clip_le (digits : List Char) :
    (clip digits).1 * 10 ^ (clip digits).2 ≤ ofDigits digits := clip_go_le 0 digits

/-- The significand and its power of ten make up no more than the digits. -/
theorem Numeral.significand_le (n : Numeral) : (n.significand.1 : ℚ) * 10 ^ n.significand.2
    ≤ ofDigits (n.whole ++ n.fraction.getD [])
      * 10 ^ (-((n.fraction.getD []).length : Int)) := by
  unfold Numeral.significand
  generalize n.fraction.getD [] = fraction
  simp only
  split
  · have kept : (clip n.whole).1 * 10 ^ (clip n.whole).2 * 10 ^ fraction.length
        ≤ ofDigits (n.whole ++ fraction) := by
      rw [ofDigits_append, Nat.mul_comm]
      exact Nat.le_add_right_of_le (Nat.mul_le_mul_left _ (clip_le n.whole))
    have cast : ((clip n.whole).1 : ℚ) * 10 ^ (clip n.whole).2 * 10 ^ fraction.length
        ≤ ofDigits (n.whole ++ fraction) := by exact_mod_cast kept
    rw [zpow_neg, zpow_natCast, zpow_natCast]
    exact (le_mul_inv_iff₀ (by positivity)).mpr cast
  · have kept := clip_le (n.whole ++ fraction)
    generalize (clip (n.whole ++ fraction)).1 = all at kept ⊢
    generalize (clip (n.whole ++ fraction)).2 = cut at kept ⊢
    have cast : (all : ℚ) * 10 ^ cut ≤ ofDigits (n.whole ++ fraction) := by exact_mod_cast kept
    calc (all : ℚ) * 10 ^ (-((fraction.length - cut : Nat) : Int))
        ≤ all * 10 ^ (cut + -(fraction.length : Int)) := by
          gcongr
          · norm_num
          · omega
      _ = all * 10 ^ cut * 10 ^ (-(fraction.length : Int)) := by
          rw [zpow_add₀ (by norm_num), zpow_natCast, mul_assoc]
      _ ≤ ofDigits (n.whole ++ fraction) * 10 ^ (-(fraction.length : Int)) := by gcongr

/-- **A number of moderate size is in range**, if its exponent is moderate too. -/
theorem Numeral.isSome_float? {n : Numeral} (value : n.scaled.value ≤ reachable)
    (power : n.power < 0x80000000) : n.float?.isSome = true := by
  have significand := n.significand_le
  have scaled : n.scaled.value = ofDigits (n.whole ++ n.fraction.getD [])
      * 10 ^ (-((n.fraction.getD []).length : Int)) * 10 ^ n.power := by
    rw [Scaled.value, Numeral.scaled, mul_assoc, ← zpow_add₀ (by norm_num), add_comm, sub_eq_add_neg]
  have reached : (n.significand.1 : ℚ) * 10 ^ (n.significand.2 + n.power) ≤ reachable := by
    calc (n.significand.1 : ℚ) * 10 ^ (n.significand.2 + n.power)
        = n.significand.1 * 10 ^ n.significand.2 * 10 ^ n.power := by
          rw [zpow_add₀ (by norm_num), mul_assoc]
      _ ≤ n.scaled.value := by
          rw [scaled]
          gcongr
      _ ≤ reachable := value
  unfold Numeral.float?
  rw [Option.isSome_map]
  simp only
  unfold Numeral.power at reached power
  split
  · rename_i none
    simp only [none, add_zero] at reached
    exact isSome_scale? reached
  · rename_i negative digits eq
    simp only [eq] at reached power
    split
    · cases negative <;> exact isSome_scale? reached
    · cases negative with
      | true => rw [if_pos (.inr rfl)]; rfl
      | false =>
        simp only at power
        omega

theorem Numeral.isSome_value? {n : Numeral} (h : n.float?.isSome = true) :
    n.value?.isSome = true := by
  have float : (n.float?.map Scalar.float).isSome = true := by rwa [Option.isSome_map]
  unfold Numeral.value?
  split
  · simp only
    split <;> split <;> first | rfl | exact float
  · exact float

/-! ## Printed numbers -/

/-- The text is scanned as a number that is in range. -/
def scansInRange (negative : Bool) (cs : List Char) : Bool :=
  match scanNumber false negative .start cs with
  | .ok s => s.numeral.value?.isSome
  | .error _ => false

theorem isSome_value?_of_scansInRange {n : Numeral} (proper : n.IsProper)
    (scans : scansInRange n.negative n.spell = true) : n.value?.isSome = true := by
  obtain ⟨q, scanned⟩ := scanNumber_spells proper.spells endsNumber_nil .start
  rw [List.append_nil] at scanned
  rwa [scansInRange, scanned] at scans

/-- The four largest doubles are in range when they are read. -/
theorem scansInRange_largest : ∀ below ∈ List.range 4, ∀ negative,
    scansInRange negative (jsonLayout.digits (shortest (2 ^ 53 - 1 - below) 971)) = true := by
  decide +kernel

theorem isSome_value?_of_writes {mantissa : Nat} {exponent : Int} (short : mantissa < 2 ^ 53)
    (high : exponent ≤ 971) {n : Numeral} (writes : (shortest mantissa exponent).Writes n)
    (spelled : n.spell = jsonLayout.digits (shortest mantissa exponent)) :
    n.value?.isSome = true := by
  by_cases largest : exponent = 971 ∧ 2 ^ 53 - 4 ≤ mantissa
  · obtain ⟨rfl, large⟩ := largest
    obtain ⟨below, few, rfl⟩ : ∃ below, below < 4 ∧ mantissa = 2 ^ 53 - 1 - below :=
      ⟨2 ^ 53 - 1 - mantissa, by omega, by omega⟩
    refine isSome_value?_of_scansInRange writes.proper ?_
    rw [spelled]
    exact scansInRange_largest below (List.mem_range.mpr few) n.negative
  · refine Numeral.isSome_value? (Numeral.isSome_float? ?_ ?_)
    · rw [writes.pads.value_eq]
      exact value_shortest_le_reachable short high fun last => by omega
    · have leading := leading_shortest_lt short high
      have power := writes.power
      omega

/-- **A floating-point number is printed as `null`, or as a number that is read as a floating-point
number again.** -/
theorem floatChars_reads (x : Float) : floatChars x = ['n', 'u', 'l', 'l'] ∨
    ∃ n : Numeral, n.IsProper ∧ floatChars x = n.signed ∧ ∃ y, n.value? = some (.float y) := by
  obtain absent | ⟨_, mantissa, exponent, finite, n, writes, printed, spelled⟩ :=
    floatChars_cases x
  · exact .inl absent
  · obtain ⟨short, high⟩ := Double.ofFloat_finite finite
    have inRange := isSome_value?_of_writes short high writes spelled
    obtain none | some := writes.floats
    · rw [none] at inRange
      cases inRange
    · exact .inr ⟨n, writes.proper, printed, some⟩

end NodeProvisioner.Json
