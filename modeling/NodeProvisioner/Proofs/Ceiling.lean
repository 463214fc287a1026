import NodeProvisioner.Proofs.Pauses

/-!
# The ceiling of pauses

Pauses grow up to a ceiling, but it is only the next pause that is held to it: the first one is as
long as the configuration says. So the ceiling is one, and pauses do not shrink, exactly if the first
pause is not above it. A configuration is not refused for that.

All this is said of the numbers themselves, not of what floating-point arithmetic makes of them: a
multiplier is the rational number that its bits stand for, and pauses grow by the same rule.

Main statement: `Config.exactPause_le_iff`.
-/

namespace NodeProvisioner

open Decimal
open Float.Model (UnpackedFloat)

/-! ## Exact numbers -/

/-- The number that a double stands for, if it is one. -/
def Decimal.Double.rational? : Double → Option ℚ
  | .finite negative mantissa exponent =>
    some ((if negative then -(mantissa : ℚ) else mantissa) * 2 ^ exponent)
  | _ => none

/-- Floats are compared by their units first. For numbers from one on, that is how they compare
indeed. -/
theorem Decimal.one_le_of_not_lt {x : Float} (notLess : ¬ x < 1.0) {q : ℚ}
    (exact : (Double.ofFloat x).rational? = some q) : 1 ≤ q := by
  have notLess : x.toModel.unpack.lt (.finite .positive (2 ^ 52) (-52) (Nat.two_pow_pos 52)) = false :=
    Bool.eq_false_iff.mpr fun less => notLess (decide_eq_true less)
  have long := isLong_unpack x.toModel.toBits.toBitVec
  change IsLong x.toModel.unpack at long
  rw [Double.ofFloat_eq] at exact
  generalize x.toModel.unpack = f at notLess long exact
  match f with
  | .notANumber => cases exact
  | .infinity _ => cases exact
  | .zero .positive | .zero .negative | .finite .negative .. => cases notLess
  | .finite .positive m e pos =>
    have long : 2 ^ 52 ≤ m ∨ e = -1074 := long
    have order : ¬ (compare e (-52)).then (compare m (2 ^ 52)) = .lt := by
      simpa [UnpackedFloat.lt, UnpackedFloat.compare] using notLess
    have unit : -52 ≤ e := by
      by_contra below
      rw [Int.compare_eq_lt.mpr (Int.not_le.mp below)] at order
      exact order rfl
    have mantissa : 2 ^ 52 ≤ m := by
      rcases long with long | small
      · exact long
      · omega
    have exact : (m : ℚ) * 2 ^ e = q := Option.some.inj exact
    rw [← exact]
    calc (1 : ℚ) = 2 ^ 52 * 2 ^ (-52 : ℤ) := by norm_num
      _ ≤ m * 2 ^ e := by
        refine mul_le_mul ?_ (zpow_le_zpow_right₀ one_le_two unit) (by positivity) (by positivity)
        exact_mod_cast mantissa

/-- The span in seconds. -/
def Duration.exactSeconds (d : Duration) : ℚ := d.nanos / second

theorem Duration.exactSeconds_ofMilliseconds (n : Nat) :
    (ofMilliseconds n).exactSeconds = n / 1000 := by
  unfold exactSeconds ofMilliseconds second
  push_cast
  ring

/-! ## Growing -/

section

variable {multiplier ceiling : ℚ}

theorem grown_le (delay : ℚ) : grown multiplier ceiling delay ≤ ceiling := min_le_right _ _

theorem le_grown (grows : 1 ≤ multiplier) {delay : ℚ} (nonneg : 0 ≤ delay) (le : delay ≤ ceiling) :
    delay ≤ grown multiplier ceiling delay :=
  le_min (le_mul_of_one_le_right nonneg grows) le

/-- What has been held to the ceiling goes on as if it had grown freely so far. -/
theorem iterate_grown (grows : 1 ≤ multiplier) (nonneg : 0 ≤ ceiling) (delay : ℚ) (k : ℕ) :
    (grown multiplier ceiling)^[k + 1] delay = min (delay * multiplier ^ (k + 1)) ceiling := by
  induction k with
  | zero => rw [pow_one]; rfl
  | succ k ih =>
    have above : ceiling ≤ ceiling * multiplier := le_mul_of_one_le_right nonneg grows
    rw [Function.iterate_succ_apply', ih, grown, min_mul_of_nonneg _ _ (zero_le_one.trans grows),
      mul_assoc, ← pow_succ, min_assoc, min_eq_right above]

end

/-! ## Pauses -/

/-- The pause after `k + 1` attempts, in seconds, if nothing is rounded. -/
def Backoff.exactPause (b : Backoff) (multiplier : ℚ) (k : ℕ) : ℚ :=
  (grown multiplier b.maxDelay.exactSeconds)^[k] b.initialDelay.exactSeconds

namespace Config

/-- **The ceiling of a valid configuration is one exactly if the first pause is not above it**, and
that is also when pauses never shrink. All pauses but the first are held to it in any case, and do not
shrink. -/
theorem exactPause_le_iff (c : Config) (valid : c.validate = .ok ()) {m : ℚ}
    (exact : (Double.ofFloat c.polling.multiplier).rational? = some m) :
    let pause := c.polling.backoff.exactPause m
    let first : ℚ := c.polling.initialDelay.toNat / 1000
    let ceiling : ℚ := c.polling.maxDelay.toNat / 1000
    ((∀ k, pause k ≤ ceiling) ↔ c.polling.initialDelay ≤ c.polling.maxDelay) ∧
    (Monotone pause ↔ c.polling.initialDelay ≤ c.polling.maxDelay) ∧
    pause 0 = first ∧
    ∀ k, pause (k + 1) = min (first * m ^ (k + 1)) ceiling ∧ pause (k + 1) ≤ ceiling ∧
      pause (k + 1) ≤ pause (k + 2) := by
  intro pause first ceiling
  have grows : 1 ≤ m := one_le_of_not_lt (not_multiplier_lt_one valid) exact
  have ceiling_eq : c.polling.backoff.maxDelay.exactSeconds = ceiling :=
    Duration.exactSeconds_ofMilliseconds _
  have start : pause 0 = first := Duration.exactSeconds_ofMilliseconds _
  have step (k : ℕ) : pause (k + 1) = grown m ceiling (pause k) := by
    rw [← ceiling_eq]
    exact Function.iterate_succ_apply' _ _ _
  have held (k : ℕ) : pause (k + 1) ≤ ceiling := by
    rw [step]
    exact grown_le _
  have rule (k : ℕ) : pause (k + 1) = min (first * m ^ (k + 1)) ceiling := by
    rw [← start, ← iterate_grown grows (by positivity), ← ceiling_eq]
    rfl
  have nonneg (k : ℕ) : 0 ≤ pause k := by
    cases k with
    | zero =>
      rw [start]
      positivity
    | succ k =>
      rw [rule]
      have : 0 ≤ m := zero_le_one.trans grows
      positivity
  have le_iff : first ≤ ceiling ↔ c.polling.initialDelay ≤ c.polling.maxDelay := by
    rw [div_le_div_iff_of_pos_right (by norm_num), Nat.cast_le, UInt64.le_iff_toNat_le]
  rw [← le_iff]
  refine ⟨⟨fun all => start ▸ all 0, fun le k => ?_⟩, ⟨fun mono => ?_, fun le => ?_⟩, start,
    fun k => ⟨rule k, held k, ?_⟩⟩
  · cases k with
    | zero => exact start.trans_le le
    | succ k => exact held k
  · calc first = pause 0 := start.symm
      _ ≤ pause 1 := mono zero_le_one
      _ ≤ ceiling := held 0
  · refine monotone_nat_of_le_succ fun k => ?_
    rw [step]
    refine le_grown grows (nonneg k) ?_
    cases k with
    | zero => exact start.trans_le le
    | succ k => exact held k
  · rw [step (k + 1)]
    exact le_grown grows (nonneg _) (held k)

theorem exact_two : (Double.ofFloat 2).rational? = some 2 := by
  have fields : Double.ofFloat 2 = .finite false (2 ^ 52) (-51) := by decide +kernel
  rw [fields]
  norm_num [Double.rational?]

/-- Pauses of one second, two, and from then on three. -/
theorem exactPause_le_iff_of_steps :
    let c : Config := { polling := { initialDelay := 1000, maxDelay := 3000, multiplier := 2 } }
    let pause := c.polling.backoff.exactPause 2
    c.validate = .ok () ∧ (Double.ofFloat c.polling.multiplier).rational? = some 2 ∧
      (∀ k, pause k ≤ 3) ∧ Monotone pause ∧ pause 0 = 1 ∧ pause 1 = 2 ∧ pause 2 = 3 := by
  intro c pause
  have valid : c.validate = .ok () := validate_polling (by decide +kernel)
  obtain ⟨held, mono, start, rule⟩ := exactPause_le_iff c valid exact_two
  have ceiling : ((c.polling.maxDelay.toNat : ℚ)) / 1000 = 3 := by
    rw [show c.polling.maxDelay.toNat = 3000 from rfl]
    norm_num
  have first : ((c.polling.initialDelay.toNat : ℚ)) / 1000 = 1 := by
    rw [show c.polling.initialDelay.toNat = 1000 from rfl]
    norm_num
  rw [ceiling] at held
  rw [first] at start
  rw [first, ceiling] at rule
  refine ⟨valid, exact_two, held.mpr (by decide), mono.mpr (by decide), start, ?_, ?_⟩
  · exact (rule 0).1.trans (by norm_num)
  · exact (rule 1).1.trans (by norm_num)

/-- A first pause of ten seconds under a ceiling of one: the configuration is valid, and yet the
pause is above the ceiling and shrinks to it. -/
theorem not_exactPause_le :
    let c : Config := { polling := { maxAttempts := 3, initialDelay := 10000, maxDelay := 1000,
                                     multiplier := 2 } }
    let pause := c.polling.backoff.exactPause 2
    c.validate = .ok () ∧ (Double.ofFloat c.polling.multiplier).rational? = some 2 ∧
      ¬ (∀ k, pause k ≤ c.polling.maxDelay.toNat / 1000) ∧ ¬ Monotone pause := by
  intro c pause
  have ceiling : ((c.polling.maxDelay.toNat : ℚ)) / 1000 = 1 := by
    rw [show c.polling.maxDelay.toNat = 1000 from rfl]
    norm_num
  have first : pause 0 = 10 := by
    rw [show pause 0 = _ from Duration.exactSeconds_ofMilliseconds 10000]
    norm_num
  have second : pause 1 ≤ 1 := by
    rw [← ceiling, ← Duration.exactSeconds_ofMilliseconds]
    exact grown_le _
  refine ⟨validate_polling (by decide +kernel), exact_two, fun held => ?_, fun mono => ?_⟩
  · have held := held 0
    rw [first, ceiling] at held
    norm_num at held
  · have shrinks := (mono zero_le_one).trans second
    rw [first] at shrinks
    norm_num at shrinks

end Config

end NodeProvisioner
