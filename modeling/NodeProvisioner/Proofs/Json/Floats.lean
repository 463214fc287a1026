import NodeProvisioner.Proofs.Json.Numbers

/-!
# Floating-point numbers are spelled by the rules

The shortest decimal of a double has no zero in front: its digits are those of a positive number,
except for zero itself. So both layouts of such a decimal, with a point and with an exponent, are
numbers by the rules of JSON, and neither can be taken for an integer. The parts of such a number
stand for the decimal that has been laid out, up to zeros at its end.

Main statement: `floatChars_cases`.
-/

namespace NodeProvisioner.Json

open Decimal

/-- The exponent. -/
def Numeral.power (n : Numeral) : Int :=
  match n.exponent with
  | none => 0
  | some (true, digits) => -ofDigits digits
  | some (false, digits) => ofDigits digits

/-- The decimal that the parts of a number stand for: all of its digits, and the place of the last
one. -/
def Numeral.scaled (n : Numeral) : Scaled :=
  ⟨ofDigits (n.whole ++ n.fraction.getD []), n.power - (n.fraction.getD []).length⟩

end NodeProvisioner.Json

namespace NodeProvisioner.Decimal

open NodeProvisioner.Json

/-! ## Digits of the shortest decimal -/

/-- A decimal that starts with a digit other than zero, or zero itself. -/
def Scaled.IsNormal (d : Scaled) : Prop := 0 < d.digits ∨ d = ⟨0, 0⟩

/-- The same decimal, with some more zeros at its end. -/
def Scaled.Pads (d padded : Scaled) : Prop :=
  ∃ zeros : Nat, padded.digits = d.digits * Nat.pow 10 zeros ∧
    padded.exponent = d.exponent - zeros

theorem Scaled.pads_trim (d : Scaled) : d.trim.Pads d := by
  fun_induction Scaled.trim d with
  | case1 d cond ih =>
    obtain ⟨zeros, digits, exponent⟩ := ih
    simp only at digits exponent
    refine ⟨zeros + 1, ?_, by omega⟩
    calc d.digits = d.digits / 10 * 10 := (Nat.div_mul_cancel (Nat.dvd_of_mod_eq_zero cond.2)).symm
      _ = (Scaled.trim ⟨d.digits / 10, d.exponent + 1⟩).digits * Nat.pow 10 zeros * 10 := by
        rw [← digits]
      _ = _ := Nat.mul_assoc _ _ _
  | case2 d cond => exact ⟨0, (Nat.mul_one _).symm, (Int.sub_zero _).symm⟩

theorem Scaled.trim_zero : Scaled.trim ⟨0, 0⟩ = ⟨0, 0⟩ := by
  rw [Scaled.trim]
  simp

theorem Neighbourhood.contains_of_onGrid? {n : Neighbourhood} {k : Int} {d : Scaled}
    (h : n.onGrid? k = some d) : n.contains d = true := by
  unfold Neighbourhood.onGrid? at h
  simp only at h
  split at h
  · cases h
  · rename_i e eq
    cases h
    exact (List.mem_filter.mp (eq ▸ List.mem_cons_self)).2
  · rename_i e f more eq
    split at h <;> cases h
    · exact (List.mem_filter.mp (eq ▸ List.mem_cons_of_mem _ List.mem_cons_self)).2
    · exact (List.mem_filter.mp (eq ▸ List.mem_cons_self)).2

/-- The shortest decimal of a double rounds to it, with some zeros at its end, if it is not zero. -/
theorem shortest_cases (mantissa : Nat) (exponent : Int) :
    shortest mantissa exponent = ⟨0, 0⟩ ∨
      mantissa ≠ 0 ∧ ∃ d, (Neighbourhood.ofBinary mantissa exponent).contains d = true ∧
        (shortest mantissa exponent).Pads d := by
  unfold shortest
  split
  · exact .inl rfl
  · rename_i ne
    unfold Neighbourhood.shortest
    simp only
    cases found : List.findSome? (Neighbourhood.ofBinary mantissa exponent).onGrid?
        ((List.range 17).map fun i : Nat =>
          (Neighbourhood.ofBinary mantissa exponent).magnitude - (i : Int)) with
    | none => exact .inl Scaled.trim_zero
    | some d =>
      obtain ⟨k, _, eq⟩ := List.exists_of_findSome?_eq_some found
      exact .inr ⟨ne, d, Neighbourhood.contains_of_onGrid? eq, d.pads_trim⟩

/-- Zero rounds to no positive number. -/
theorem Neighbourhood.pos_of_contains {n : Neighbourhood} (low : 0 < n.low) {d : Scaled}
    (h : n.contains d = true) : 0 < d.digits := by
  obtain ⟨digits, exponent⟩ := d
  refine Nat.pos_of_ne_zero ?_
  rintro rfl
  have factor : 0 < n.low * Nat.pow 10 (-exponent).toNat :=
    Nat.mul_pos low (Nat.pow_pos (by decide))
  unfold Neighbourhood.contains Scaled.over at h
  simp only [Nat.zero_mul] at h
  split at h
  · rw [Bool.and_eq_true, decide_eq_true_eq] at h
    omega
  · rw [Bool.and_eq_true, decide_eq_true_eq] at h
    omega

/-- The double lies above the middle between it and the one below. -/
theorem Neighbourhood.low_pos {mantissa : Nat} (h : 0 < mantissa) (exponent : Int) :
    0 < (Neighbourhood.ofBinary mantissa exponent).low := by
  unfold Neighbourhood.ofBinary
  have scale : 0 < 1 <<< exponent.toNat :=
    Nat.one_shiftLeft exponent.toNat ▸ Nat.two_pow_pos exponent.toNat
  refine Nat.mul_pos ?_ scale
  split <;> omega

/-- **The shortest decimal of a double has no zero in front.** -/
theorem isNormal_shortest (mantissa : Nat) (exponent : Int) :
    (shortest mantissa exponent).IsNormal := by
  obtain zero | ⟨ne, d, contained, _, digits, _⟩ := shortest_cases mantissa exponent
  · exact .inr zero
  · have low := Neighbourhood.low_pos (Nat.pos_of_ne_zero ne) exponent
    have pos := Neighbourhood.pos_of_contains low contained
    rw [digits] at pos
    exact .inl (Nat.pos_of_mul_pos_right pos)

/-! ## Layouts -/

/-- The digits before the point, padded to their number. -/
theorem isWhole_padded {d : Char} {tail : List Char} (ne : d ≠ '0') (h : IsRun (d :: tail))
    {n : Nat} (pos : 0 < n) (zeros : Nat) :
    IsWhole ((d :: tail).take n ++ List.replicate zeros '0') := by
  obtain ⟨n, rfl⟩ := Nat.exists_eq_add_one_of_ne_zero (Nat.pos_iff_ne_zero.mp pos)
  rw [List.take_succ_cons, List.cons_append]
  refine .leading ne ⟨List.cons_ne_nil _ _, ?_⟩
  intro c mem
  rcases List.mem_cons.mp mem with rfl | mem
  · exact h.isDigit c List.mem_cons_self
  · rcases List.mem_append.mp mem with mem | mem
    · exact h.isDigit c (List.mem_cons_of_mem _ (List.mem_of_mem_take mem))
    · rw [List.eq_of_mem_replicate mem]
      rfl

/-- The part after the point. -/
theorem isRun_part {digits : List Char} (h : IsRun digits) (n : Nat) :
    IsRun (if (digits.drop n).isEmpty then ['0'] else digits.drop n) := by
  split
  · exact isRun_zero
  · rename_i nonempty
    refine ⟨fun eq => nonempty (List.isEmpty_iff.mpr eq), ?_⟩
    intro c mem
    exact h.isDigit c (List.mem_of_mem_drop mem)

/-! ## What a layout stands for -/

/-- The power of ten of the leading digit. -/
def Scaled.leading (d : Scaled) : Int := d.exponent + (Nat.toDigits 10 d.digits).length - 1

/-- The parts of a number with a fraction or an exponent stand for the decimal. -/
structure Scaled.Writes (d : Scaled) (n : Numeral) : Prop where
  proper : n.IsProper
  floats : n.Floats
  pads : d.Pads n.scaled
  power : n.power ≤ max 0 d.leading

/-- The characters spell a number that stands for the decimal. -/
def Scaled.IsWritten (d : Scaled) (cs : List Char) : Prop :=
  ∀ negative, ∃ n : Numeral, d.Writes n ∧ n.negative = negative ∧ n.spell = cs

section

variable {d : Scaled}

theorem pads_of_eq {digits : Nat} {exponent : Int} (same : digits = d.digits)
    (same' : exponent = d.exponent) : d.Pads ⟨digits, exponent⟩ :=
  ⟨0, same.trans (Nat.mul_one _).symm, same'.trans (Int.sub_zero _).symm⟩

theorem isWritten_point {whole part : List Char} (hw : IsWhole whole) (hp : IsRun part)
    (pads : d.Pads ⟨ofDigits (whole ++ part), -part.length⟩) :
    d.IsWritten (whole ++ '.' :: part) := by
  intro negative
  refine ⟨⟨negative, whole, some part, none⟩, ⟨⟨hw, ?_, nofun⟩,
    floats_of_fraction (Option.some_ne_none _), ?_, Int.le_max_left _ _⟩, rfl, ?_⟩
  · rintro digits ⟨⟩
    exact hp
  · have scaled : Numeral.scaled ⟨negative, whole, some part, none⟩
        = ⟨ofDigits (whole ++ part), 0 - part.length⟩ := rfl
    rw [scaled, Int.zero_sub]
    exact pads
  · rw [Numeral.spell, Numeral.fractionChars, Numeral.exponentChars, List.append_nil]

theorem isWritten_pointed (normal : d.IsNormal) :
    d.IsWritten (pointed (Nat.toDigits 10 d.digits) (d.leading + 1)) := by
  rcases normal with positive | rfl
  · obtain ⟨c, tail, eq, ne⟩ := toDigits_head positive
    have run := isRun_toDigits d.digits
    have value := ofDigits_toDigits d.digits
    rw [eq] at run value
    have place : d.leading + 1 = d.exponent + (c :: tail).length := by
      rw [Scaled.leading, eq]
      omega
    rw [eq, place]
    generalize digits_eq : c :: tail = digits at *
    unfold pointed
    split
    · refine isWritten_point .zero (isRun_zeros_append run _) (pads_of_eq ?_ ?_)
      · exact (ofDigits_zeros_append _ digits).trans value
      · rw [List.length_append, List.length_replicate]
        omega
    · rename_i above
      have whole := isWhole_padded ne (digits_eq ▸ run) (by omega :
        0 < (d.exponent + digits.length).toNat)
      rw [digits_eq] at whole
      refine isWritten_point (whole _) (isRun_part run _) ?_
      split
      · -- zeros fill up the places before the point, and one stands behind it
        rename_i none
        rw [List.isEmpty_iff, List.drop_eq_nil_iff] at none
        rw [List.take_of_length_le none]
        refine ⟨(d.exponent + digits.length).toNat - digits.length + 1, ?_, ?_⟩
        · change ofDigits (_ ++ List.replicate _ '0' ++ ['0']) = _
          rw [List.append_assoc, ← List.replicate_succ', ofDigits_append, ofDigits_zeros, value,
            List.length_replicate, Nat.add_zero, Nat.mul_comm]
        · change (-1 : Int) = _
          omega
      · rename_i some
        rw [List.isEmpty_iff, List.drop_eq_nil_iff] at some
        have taken : (digits.take (d.exponent + digits.length).toNat).length
            = (d.exponent + digits.length).toNat := by
          rw [List.length_take]
          omega
        rw [taken, Nat.sub_self, List.replicate_zero, List.append_nil, List.take_append_drop]
        refine pads_of_eq value ?_
        rw [List.length_drop]
        omega
  · exact isWritten_point .zero isRun_zero ⟨1, rfl, rfl⟩

theorem isWritten_exponent {c : Char} {tail : List Char} (first : IsWhole [c])
    (run : ∀ x ∈ tail, x.isDigit = true) (value : ofDigits (c :: tail) = d.digits)
    (length : (Nat.toDigits 10 d.digits).length = tail.length + 1) :
    d.IsWritten (scientific (c :: tail) d.leading) := by
  have sign : (if d.leading < 0 then '-' else '+') = exponentSign (d.leading < 0) := by
    unfold exponentSign
    split <;> simp_all
  have power (negative : Bool) (part : Option (List Char)) : Numeral.power ⟨negative, [c], part,
      some (d.leading < 0, Nat.toDigits 10 d.leading.natAbs)⟩ = d.leading := by
    by_cases below : d.leading < 0
    · rw [decide_eq_true below]
      change -(ofDigits (Nat.toDigits 10 d.leading.natAbs) : Int) = _
      rw [ofDigits_toDigits]
      omega
    · rw [decide_eq_false below]
      change (ofDigits (Nat.toDigits 10 d.leading.natAbs) : Int) = _
      rw [ofDigits_toDigits]
      omega
  intro negative
  have floats (part : Option (List Char)) : Numeral.Floats ⟨negative, [c], part,
      some (d.leading < 0, Nat.toDigits 10 d.leading.natAbs)⟩ :=
    floats_of_exponent (Option.some_ne_none _)
  have place : d.exponent = d.leading - tail.length := by
    rw [Scaled.leading, length]
    omega
  unfold scientific
  rw [sign]
  cases tail with
  | nil =>
    refine ⟨⟨negative, [c], none, some (d.leading < 0, Nat.toDigits 10 d.leading.natAbs)⟩,
      ⟨⟨first, nofun, ?_⟩, floats none, ?_, ?_⟩, rfl, rfl⟩
    · rintro _ _ ⟨⟩
      exact isRun_toDigits _
    · refine pads_of_eq value ?_
      rw [power]
      exact place.symm
    · rw [power]
      exact Int.le_max_right _ _
  | cons e tail =>
    refine ⟨⟨negative, [c], some (e :: tail), some (d.leading < 0,
      Nat.toDigits 10 d.leading.natAbs)⟩, ⟨⟨first, ?_, ?_⟩, floats _, ?_, ?_⟩, rfl, rfl⟩
    · rintro _ ⟨⟩
      exact ⟨List.cons_ne_nil _ _, run⟩
    · rintro _ _ ⟨⟩
      exact isRun_toDigits _
    · refine pads_of_eq value ?_
      rw [power]
      exact place.symm
    · rw [power]
      exact Int.le_max_right _ _

theorem isWritten_scientific (normal : d.IsNormal) :
    d.IsWritten (scientific (Nat.toDigits 10 d.digits) d.leading) := by
  rcases normal with positive | rfl
  · obtain ⟨c, tail, eq, ne⟩ := toDigits_head positive
    have run := isRun_toDigits d.digits
    have value := ofDigits_toDigits d.digits
    rw [eq] at run value ⊢
    have first : IsWhole [c] :=
      .leading ne ⟨List.cons_ne_nil _ _, by simpa using run.isDigit c List.mem_cons_self⟩
    exact isWritten_exponent first (fun x mem => run.isDigit x (List.mem_cons_of_mem _ mem)) value
      (congrArg List.length eq)
  · exact isWritten_exponent .zero nofun rfl rfl

/-- **The layout of a decimal spells a number that stands for it.** -/
theorem isWritten_digits (normal : d.IsNormal) : d.IsWritten (jsonLayout.digits d) := by
  unfold Layout.digits jsonLayout
  simp only
  split
  · exact isWritten_pointed normal
  · exact isWritten_scientific normal

end

end NodeProvisioner.Decimal

namespace NodeProvisioner.Json

open Decimal

/-- **A floating-point number is printed as `null`, or as a number that is not an integer** and
stands for its shortest decimal. -/
theorem floatChars_cases (x : Float) :
    floatChars x = ['n', 'u', 'l', 'l'] ∨
      ∃ negative mantissa exponent, Double.ofFloat x = .finite negative mantissa exponent ∧
        ∃ n : Numeral, (shortest mantissa exponent).Writes n ∧ floatChars x = n.signed ∧
          n.spell = jsonLayout.digits (shortest mantissa exponent) := by
  unfold floatChars
  cases finite : Double.ofFloat x with
  | nan => exact .inl rfl
  | infinite negative => exact .inl rfl
  | finite negative mantissa exponent =>
    obtain ⟨n, writes, sign, spelled⟩ :=
      isWritten_digits (isNormal_shortest mantissa exponent) negative
    refine .inr ⟨negative, mantissa, exponent, rfl, n, writes, ?_, spelled⟩
    simp only
    rw [Layout.render, finite, Numeral.signed, spelled, sign]
    simp only [String.toList_append, String.toList_ofList]
    cases negative <;> rfl

end NodeProvisioner.Json
