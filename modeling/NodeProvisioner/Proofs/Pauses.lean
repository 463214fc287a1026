import NodeProvisioner.Config
import NodeProvisioner.Proofs.Decimal.Magnitudes

/-!
# Pauses that can be stated

A pause is computed in floating-point arithmetic, where it could come out as something that is not a
span of time: as a number below zero, or as one that is too large. It does not if the multiplier is
not negative and the pauses asked for are spans that can be given in milliseconds. Then the next
pause is at most the longest one, and a factor between a half and one and a half does not make it
too long.

Main statements: `Backoff.exists_nextDelay?` and `Backoff.exists_spread?`.
-/

namespace NodeProvisioner

open Decimal
open Float.Model (UnpackedFloat)
open Float.Model.UnpackedFloat (Sign)

theorem not_lt_zero {x : Float} (h : IsNonneg x.toModel.unpack) : ¬ x < 0 := by
  intro less
  have less : x.toModel.unpack.lt (.zero .positive) = true := of_decide_eq_true less
  match f_eq : x.toModel.unpack, h with
  | .notANumber, _ | .infinity .positive, _ | .zero .positive, _ | .finite .positive .., _ =>
    rw [f_eq] at less
    cases less

theorem lt_one_of_lt_zero {x : Float} (h : x < 0) : x < 1.0 := by
  have zero : (0 : Float).toModel.unpack = .zero .positive := rfl
  have one : (1.0 : Float).toModel.unpack
      = .finite .positive (2 ^ 52) (-52) (Nat.two_pow_pos 52) := rfl
  have below : x.toModel.unpack.lt (0 : Float).toModel.unpack = true := of_decide_eq_true h
  rw [zero] at below
  have less : x.toModel.unpack.lt (1.0 : Float).toModel.unpack = true := by
    rw [one]
    exact lt_of_lt_zero below _
  exact decide_eq_true less

/-! ## Spans -/

namespace Duration

/-- A span that a configuration can ask for: milliseconds are counted in sixty-four bits. -/
def IsConfigurable (d : Duration) : Prop := d.nanos < 2 ^ 64 * 1000000

/-- A span that a pause can come to: well below the first that is too long. -/
def IsModerate (d : Duration) : Prop := d.nanos < 2 ^ 58 * second

theorem IsConfigurable.isModerate {d : Duration} (h : d.IsConfigurable) : d.IsModerate :=
  Nat.lt_of_lt_of_le h (by decide)

theorem isConfigurable_ofMilliseconds (n : UInt64) :
    (ofMilliseconds n.toNat).IsConfigurable := Nat.mul_lt_mul_of_pos_right n.toNat_lt (by decide)

theorem isNonneg_seconds (d : Duration) : IsNonneg d.seconds.toModel.unpack :=
  have rest := (isNonneg_div (isNonneg_ofNat (d.nanos % second)) (isNonneg_ofNat second)).repacked
  (isNonneg_add (isNonneg_ofNat (d.nanos / second)) rest).repacked

/-- Nanoseconds to the second, with all the bits there is room for. -/
theorem unpack_second : (Float.ofNat second).toModel.unpack
    = .finite .positive (second * 2 ^ 23) (-23) (by decide) := rfl

/-- The seconds of a span are as large as their whole number makes them. -/
theorem isWithin_seconds {k : Nat} (low : 3 ≤ k) (high : k ≤ 900) {d : Duration}
    (short : d.nanos < second * 2 ^ (52 + k)) : IsWithin (k + 2) d.seconds.toModel.unpack := by
  have whole : IsWithin k (Float.ofNat (d.nanos / second)).toModel.unpack :=
    isWithin_ofNat low high (Nat.div_lt_of_lt_mul short)
  have rest : IsWithin 3 (Float.ofNat (d.nanos % second)).toModel.unpack :=
    isWithin_ofNat (Nat.le_refl 3) (by decide) (Nat.lt_trans (Nat.mod_lt _ (by decide)) (by decide))
  have room : (-1074 : Int) ≤ 3 - (-23) - 52 := by decide
  have quotient := isWithin_div room rest (isShort_unpack _)
    (show 2 ^ 52 ≤ second * 2 ^ 23 by decide) (by decide)
  rw [← unpack_second] at quotient
  have part : IsWithin k
      (Float.ofNat (d.nanos % second) / Float.ofNat second).toModel.unpack :=
    (quotient.repacked (by decide) (by decide)).mono (by omega)
  exact (isWithin_add (by omega) whole part (isShort_unpack _) (isShort_unpack _)).repacked
    (by omega) (by omega)

theorem IsConfigurable.isWithin {d : Duration} (h : d.IsConfigurable) :
    IsWithin 5 d.seconds.toModel.unpack :=
  isWithin_seconds (k := 3) (by decide) (by decide) (Nat.lt_trans h (by decide))

theorem IsModerate.isWithin {d : Duration} (h : d.IsModerate) :
    IsWithin 8 d.seconds.toModel.unpack :=
  isWithin_seconds (k := 6) (by decide) (by decide) (Nat.mul_comm _ second ▸ h)

theorem roundedQuotient_le (num den : Nat) : roundedQuotient num den ≤ num + 1 := by
  have whole := Nat.div_le_self num den
  unfold roundedQuotient
  simp only
  split <;> omega

/-- A number that is not large is a span in seconds, and that is not long. -/
theorem exists_ofFloat? {k : Nat} (room : k ≤ 11) {x : Float}
    (h : IsWithin k x.toModel.unpack) :
    ∃ d, ofFloat? x = some d ∧ d.nanos < 2 ^ (53 + k) * second := by
  have short := isShort_unpack x.toModel.toBits.toBitVec
  change IsShort x.toModel.unpack at short
  unfold ofFloat?
  rw [Double.ofFloat_eq]
  generalize x.toModel.unpack = f at h short
  match f, h with
  | .zero _, rfl => exact ⟨⟨0⟩, rfl, Nat.mul_pos (Nat.two_pow_pos _) (by decide)⟩
  | .finite _ m e _, ⟨rfl, le⟩ =>
    have short : m < 2 ^ 53 := short
    -- rounding up makes it one nanosecond longer at most
    have scaled : m <<< e.toNat * second + 1 < 2 ^ (53 + k) * second := by
      rw [Nat.shiftLeft_eq, Nat.pow_add]
      have unit : 2 ^ e.toNat ≤ 2 ^ k := Nat.pow_le_pow_right (by decide) (by omega)
      have most : m * 2 ^ e.toNat ≤ (2 ^ 53 - 1) * 2 ^ k := Nat.mul_le_mul (by omega) unit
      have pos := Nat.two_pow_pos k
      have second_eq : second = 1000000000 := rfl
      rw [second_eq]
      omega
    have bounded : 2 ^ (53 + k) * second ≤ bound := by
      have fits : 2 ^ (53 + k) ≤ 2 ^ 64 := Nat.pow_le_pow_right (by decide) (by omega)
      exact Nat.le_trans (Nat.mul_le_mul_right second fits) (by decide)
    have rounded := Nat.lt_of_le_of_lt (roundedQuotient_le (m <<< e.toNat * second)
      (1 <<< (-e).toNat)) scaled
    simp only [Double.ofUnpacked, isBelow, Bool.false_and, Bool.false_eq_true, if_false]
    rw [if_pos (Nat.lt_of_lt_of_le rounded bounded)]
    exact ⟨_, rfl, rounded⟩

/-- The seconds that are too many for any span. -/
def limit : Float := 18446744073709551616

theorem unpack_limit : limit.toModel.unpack
    = .finite .positive (2 ^ 52) 12 (Nat.two_pow_pos 52) := rfl

/-- Floats are compared by their units first, and the limit is the least number of its unit. -/
theorem lt_limit_iff {x : Float} (nonneg : IsNonneg x.toModel.unpack) :
    x < limit ↔ IsWithin 11 x.toModel.unpack := by
  have below : x < limit ↔ x.toModel.unpack.lt limit.toModel.unpack = true :=
    ⟨of_decide_eq_true, fun less => decide_eq_true less⟩
  rw [below, unpack_limit]
  have long := isLong_unpack x.toModel.toBits.toBitVec
  change IsLong x.toModel.unpack at long
  generalize x.toModel.unpack = f at nonneg long
  cases f with
  | notANumber => exact ⟨nofun, nofun⟩
  | infinity =>
    obtain rfl := nonneg
    exact ⟨nofun, nofun⟩
  | zero =>
    obtain rfl := nonneg
    exact ⟨fun _ => rfl, fun _ => rfl⟩
  | finite _ m e _ =>
    obtain rfl := nonneg
    have long : 2 ^ 52 ≤ m ∨ e = -1074 := long
    have order : UnpackedFloat.lt (.finite .positive m e ‹_›)
          (.finite .positive (2 ^ 52) 12 (Nat.two_pow_pos 52)) = true ↔
        e < 12 ∨ e = 12 ∧ m < 2 ^ 52 := by
      rw [← Int.compare_eq_lt, ← Int.compare_eq_eq, ← Nat.compare_eq_lt, ← Ordering.then_eq_lt]
      simp [UnpackedFloat.lt, UnpackedFloat.compare]
    have within_iff : IsWithin 11 (.finite .positive m e ‹_›) ↔ e ≤ 11 := and_iff_right rfl
    rw [order, within_iff]
    omega

theorem ofFloat?_zero {x : Float} {s : Sign} (h : x.toModel.unpack = .zero s) :
    ofFloat? x = some ⟨0⟩ := by
  unfold ofFloat?
  rw [Double.ofFloat_eq, h]
  cases s <;> rfl

theorem roundedQuotient_one (n : Nat) : roundedQuotient n 1 = n := by
  simp [roundedQuotient, Nat.mod_one]

/-- **Seconds that are not negative are those of a span up to the limit**, and no further. -/
theorem isSome_ofFloat?_iff {x : Float} (nonneg : ¬ x < 0) :
    (ofFloat? x).isSome = true ↔ x < limit := by
  have notLess : x.toModel.unpack.lt (.zero .positive) = false :=
    Bool.eq_false_iff.mpr fun less => nonneg (decide_eq_true less)
  obtain nonneg | zero := isNonneg_of_not_lt notLess
  · rw [lt_limit_iff nonneg]
    constructor
    · have long := isLong_unpack x.toModel.toBits.toBitVec
      change IsLong x.toModel.unpack at long
      unfold ofFloat?
      rw [Double.ofFloat_eq]
      generalize x.toModel.unpack = f at nonneg long
      match f, nonneg with
      | .notANumber, _ => exact nofun
      | .infinity _, rfl => exact nofun
      | .zero _, rfl => exact fun _ => rfl
      | .finite _ m e _, rfl =>
        intro stated
        refine ⟨rfl, Int.not_lt.mp fun above => ?_⟩
        -- beyond the limit the number is whole, so that it is not rounded
        have long : 2 ^ 52 ≤ m := Or.resolve_right long (by omega)
        have unit : (-e).toNat = 0 := by omega
        have large : 2 ^ 52 * 2 ^ 12 ≤ m * 2 ^ e.toNat :=
          Nat.mul_le_mul long (Nat.pow_le_pow_right (by decide) (by omega))
        have least : bound = 2 ^ 52 * 2 ^ 12 * second := by decide
        simp only [Double.ofUnpacked, isBelow, Bool.false_and, Bool.false_eq_true, if_false, unit,
          Nat.shiftLeft_eq, Nat.pow_zero, Nat.mul_one, roundedQuotient_one, least] at stated
        rw [if_neg (Nat.not_lt.mpr (Nat.mul_le_mul_right second large))] at stated
        cases stated
    · intro within
      obtain ⟨d, eq, _⟩ := exists_ofFloat? (k := 11) (by decide) within
      rw [eq]
      rfl
  · have below : x.toModel.unpack.lt limit.toModel.unpack = true := by
      rw [zero, unpack_limit]
      rfl
    rw [ofFloat?_zero zero]
    exact ⟨fun _ => decide_eq_true below, fun _ => rfl⟩

end Duration

/-! ## Pauses -/

namespace Backoff

variable {b : Backoff}

/-- Its pauses are such as a configuration can ask for. -/
structure IsConfigurable (b : Backoff) : Prop where
  initial : b.initialDelay.IsConfigurable
  ceiling : b.maxDelay.IsConfigurable

theorem mul_zero_negative {f : UnpackedFloat} (h : IsNonneg f) :
    f.mul .binary64 (.zero .negative) = .notANumber ∨
      f.mul .binary64 (.zero .negative) = .zero .negative := by
  match f, h with
  | .notANumber, _ => exact .inl rfl
  | .infinity _, rfl => exact .inl rfl
  | .zero _, rfl => exact .inr rfl
  | .finite .., rfl => exact .inr rfl

/-- The seconds of the next pause are those of the longest one, or from zero on and no more than
that, if the multiplier is not negative. But they may be a zero with a minus sign. -/
theorem grown_cases (nonneg : ¬ b.multiplier < 0) (d : Duration) :
    let ceiling := b.maxDelay.seconds
    let next := grown b.multiplier ceiling d.seconds
    next = ceiling ∨ next.toModel.unpack = .zero .negative ∨
      IsNonneg next.toModel.unpack ∧
        next.toModel.unpack.le ceiling.toModel.unpack = true := by
  have notLess : b.multiplier.toModel.unpack.lt (.zero .positive) = false :=
    Bool.eq_false_iff.mpr fun less => nonneg (decide_eq_true less)
  intro ceiling next
  by_cases le : d.seconds * b.multiplier ≤ ceiling
  · right
    have next_eq : next = d.seconds * b.multiplier := if_pos le
    have le : (d.seconds * b.multiplier).toModel.unpack.le ceiling.toModel.unpack = true :=
      of_decide_eq_true le
    rw [next_eq]
    obtain factor | zero := isNonneg_of_not_lt notLess
    · exact .inr ⟨(isNonneg_mul d.isNonneg_seconds factor).repacked, le⟩
    · -- a zero with a minus sign makes one of any number, and that is no pause at all
      have product : (d.seconds * b.multiplier).toModel.unpack = (Float.Model.pack
          (d.seconds.toModel.unpack.mul .binary64 b.multiplier.toModel.unpack)).unpack := rfl
      rw [zero] at product
      obtain none | none := mul_zero_negative d.isNonneg_seconds
      · rw [product, none] at le
        cases le
      · rw [none] at product
        exact .inl product
  · exact .inl (if_neg le)

theorem not_grown_lt_zero (nonneg : ¬ b.multiplier < 0) (d : Duration) :
    ¬ grown b.multiplier b.maxDelay.seconds d.seconds < 0 := by
  obtain same | zero | ⟨next, _⟩ := grown_cases nonneg d
  · rw [same]
    exact not_lt_zero b.maxDelay.isNonneg_seconds
  · intro below
    have below : (grown b.multiplier b.maxDelay.seconds d.seconds).toModel.unpack.lt
        (.zero .positive) = true := of_decide_eq_true below
    rw [zero] at below
    cases below
  · exact not_lt_zero next

/-- **There is a next pause if its seconds are below the limit**, and no other. -/
theorem isSome_nextDelay?_iff (nonneg : ¬ b.multiplier < 0) (d : Duration) :
    (b.nextDelay? d).isSome = true ↔
      grown b.multiplier b.maxDelay.seconds d.seconds < Duration.limit :=
  Duration.isSome_ofFloat?_iff (not_grown_lt_zero nonneg d)

/-- **There always is a next pause**, whatever the last one was, if the multiplier is not negative and
the longest pause can be configured. -/
theorem exists_nextDelay? (nonneg : ¬ b.multiplier < 0) (short : b.maxDelay.IsConfigurable)
    (d : Duration) : ∃ next, b.nextDelay? d = some next ∧ next.IsModerate := by
  have held {x : Float} (h : IsWithin 5 x.toModel.unpack) :
      ∃ next, Duration.ofFloat? x = some next ∧ next.IsModerate :=
    Duration.exists_ofFloat? (k := 5) (by decide) h
  unfold nextDelay?
  obtain same | zero | ⟨next, le⟩ := grown_cases nonneg d
  · rw [same]
    exact held short.isWithin
  · exact ⟨⟨0⟩, Duration.ofFloat?_zero zero, Nat.mul_pos (Nat.two_pow_pos 58) (by decide)⟩
  · exact held (.of_le next short.isWithin le)

/-- Not every span can be configured. After the longest one that a machine can count there is no next
pause, since its seconds are rounded up. -/
example : let longest : Duration := ⟨(2 ^ 64 - 1) * Duration.second⟩
    ({ maxAttempts := 0, initialDelay := longest, maxDelay := longest, multiplier := 1 } :
      Backoff).nextDelay? longest = none := by decide +kernel

/-- A factor between a half and one and a half. -/
theorem isWithin_factor {factor : Float} (above : 0.5 ≤ factor) (below : factor < 1.5) :
    IsWithin (-52) factor.toModel.unpack := by
  have most : IsWithin (-52) (1.5 : Float).toModel.unpack := ⟨rfl, Int.le_refl _⟩
  have least : (0.5 : Float).toModel.unpack
      = .finite .positive (2 ^ 52) (-53) (Nat.two_pow_pos 52) := rfl
  have above : (0.5 : Float).toModel.unpack.le factor.toModel.unpack = true :=
    of_decide_eq_true above
  rw [least] at above
  exact most.of_between above (of_decide_eq_true below)

/-- **A pause can be spread if its seconds are then below the limit**, and no other. -/
theorem isSome_spread?_iff {factor : Float} (above : 0.5 ≤ factor) (below : factor < 1.5)
    (d : Duration) : (spread? factor d).isSome = true ↔ d.seconds * factor < Duration.limit :=
  Duration.isSome_ofFloat?_iff (not_lt_zero
    (isNonneg_mul d.isNonneg_seconds (isWithin_factor above below).isNonneg).repacked)

/-- **A moderate pause can be spread** by a factor between a half and one and a half. -/
theorem exists_spread? {factor : Float} (above : 0.5 ≤ factor) (below : factor < 1.5)
    {d : Duration} (moderate : d.IsModerate) : ∃ spread, spread? factor d = some spread := by
  have product : IsWithin (8 + -52 + 54) (d.seconds * factor).toModel.unpack :=
    (isWithin_mul (by decide) moderate.isWithin (isWithin_factor above below) (isShort_unpack _)
      (isShort_unpack _)).repacked (by decide) (by decide)
  obtain ⟨s, eq, _⟩ := Duration.exists_ofFloat? (k := 10) (by decide) product
  exact ⟨s, eq⟩

/-! ### One after the other -/

/-- The pause after `j` others, if all of them can be stated. -/
def pause? (b : Backoff) : Nat → Option Duration
  | 0 => some b.initialDelay
  | j + 1 => (b.pause? j).bind b.nextDelay?

/-- The pause after `j` others is below the limit, both as it is slept and as it grows. -/
def IsBounded (b : Backoff) (factor : Float) (j : Nat) : Prop :=
  ∀ d, b.pause? j = some d → d.seconds * factor < Duration.limit ∧
    grown b.multiplier b.maxDelay.seconds d.seconds < Duration.limit

theorem isModerate_pause? (nonneg : ¬ b.multiplier < 0) (short : b.IsConfigurable) {j : Nat}
    {d : Duration} (reached : b.pause? j = some d) : d.IsModerate := by
  cases j with
  | zero => exact Option.some.inj reached ▸ short.initial.isModerate
  | succ j =>
    obtain ⟨last, _, next⟩ := Option.bind_eq_some_iff.mp reached
    obtain ⟨_, eq, moderate⟩ := exists_nextDelay? nonneg short.ceiling last
    rw [next] at eq
    cases eq
    exact moderate

/-- **Pauses that can be configured are below the limit.** -/
theorem IsConfigurable.isBounded (short : b.IsConfigurable) (nonneg : ¬ b.multiplier < 0)
    {factor : Float} (above : 0.5 ≤ factor) (below : factor < 1.5) (j : Nat) :
    b.IsBounded factor j := by
  intro d reached
  obtain ⟨span, spread⟩ := exists_spread? above below (isModerate_pause? nonneg short reached)
  obtain ⟨next, grows, _⟩ := exists_nextDelay? nonneg short.ceiling d
  exact ⟨(isSome_spread?_iff above below d).mp (by rw [spread]; rfl),
    (isSome_nextDelay?_iff nonneg d).mp (by rw [grows]; rfl)⟩

end Backoff

/-! ## Configurations -/

namespace Config

/-- A configuration that says only how operations are polled is valid if pauses do not shrink. -/
theorem validate_polling {p : OperationPolling} (grows : ¬ p.multiplier < 1.0) :
    ({ polling := p } : Config).validate = .ok () := by
  have lasts : ¬ (600 : UInt64) = 0 := by decide
  have holds : ¬ (30 : Int64) ≤ 0 := by decide
  unfold validate
  rw [if_neg lasts, if_neg holds, if_neg grows]

/-- A configuration is valid whatever the number of attempts. -/
theorem validate_attempts (attempts : UInt32) :
    ({ polling := { maxAttempts := attempts } } : Config).validate = .ok () :=
  validate_polling (show ¬ (1.5 : Float) < 1.0 by decide +kernel)

variable {c : Config}

theorem not_multiplier_lt_one (valid : c.validate = .ok ()) : ¬ c.polling.multiplier < 1.0 := by
  intro shrinks
  simp only [validate, if_pos shrinks] at valid
  split_ifs at valid

theorem not_multiplier_lt_zero (valid : c.validate = .ok ()) :
    ¬ c.polling.backoff.multiplier < 0 :=
  fun negative => not_multiplier_lt_one valid (lt_one_of_lt_zero negative)

/-- All that a configuration can ask for can be configured, whether it is valid or not. -/
theorem isConfigurable_backoff (c : Config) : c.polling.backoff.IsConfigurable where
  initial := Duration.isConfigurable_ofMilliseconds _
  ceiling := Duration.isConfigurable_ofMilliseconds _

/-- There always is a next pause if the configuration is valid. -/
theorem exists_nextDelay? (valid : c.validate = .ok ()) (d : Duration) :
    ∃ next, c.polling.backoff.nextDelay? d = some next := by
  obtain ⟨next, eq, _⟩ := Backoff.exists_nextDelay? (not_multiplier_lt_zero valid)
    c.isConfigurable_backoff.ceiling d
  exact ⟨next, eq⟩

end Config

end NodeProvisioner
