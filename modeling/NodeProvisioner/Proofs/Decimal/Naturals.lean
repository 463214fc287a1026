import NodeProvisioner.Decimal.Reading
import NodeProvisioner.Proofs.Json.Numbers

/-!
# Spellings of natural numbers

A natural number has one shortest row of digits. It may also be written with zeros before these
digits, and with a plus sign before all of them. There is no other way: whatever is read as a number
is one of its spellings.

Main statement: `Decimal.natural?_eq_some_iff`.
-/

namespace NodeProvisioner.Decimal

open Json (IsRun IsWhole isRun_toDigits isRun_zeros_append ofDigits_eq ofDigits_toDigits
  ofDigits_zeros_append toNat_of_isDigit)

/-! ## Digits -/

theorem exists_digitChar {c : Char} (h : c.isDigit = true) : ∃ d < 10, c = Nat.digitChar d := by
  obtain ⟨low, high⟩ := toNat_of_isDigit h
  refine ⟨c.toNat - 48, by omega, Char.toNat_inj.mp ?_⟩
  rw [Nat.toNat_digitChar_of_lt_ten (by omega)]
  omega

/-- A number goes on with the digits that come after its own. -/
theorem toDigits_append_eq {digits : List Char} (h : ∀ c ∈ digits, c.isDigit = true) {n : Nat}
    (positive : 0 < n) :
    Nat.toDigits 10 n ++ digits = Nat.toDigits 10 (Nat.ofDigitChars 10 digits n) := by
  induction digits generalizing n with
  | nil => rw [List.append_nil, Nat.ofDigitChars_nil]
  | cons c rest ih =>
    obtain ⟨d, small, rfl⟩ := exists_digitChar (h c List.mem_cons_self)
    have next : Nat.toDigits 10 n ++ [d.digitChar] = Nat.toDigits 10 (10 * n + d) := by
      rw [← Nat.toDigits_of_lt_base small, Nat.toDigits_append_toDigits (by decide) positive small]
    calc Nat.toDigits 10 n ++ d.digitChar :: rest
      _ = Nat.toDigits 10 n ++ [d.digitChar] ++ rest := by
        rw [List.append_assoc, List.singleton_append]
      _ = Nat.toDigits 10 (10 * n + d) ++ rest := by rw [next]
      _ = Nat.toDigits 10 (Nat.ofDigitChars 10 rest (10 * n + d)) :=
        ih (fun c mem => h c (List.mem_cons_of_mem _ mem)) (by omega)
      _ = Nat.toDigits 10 (Nat.ofDigitChars 10 (d.digitChar :: rest) n) := by
        rw [Nat.ofDigitChars_cons_digitChar_of_lt_ten small]

/-- **A run of digits is the shortest one for its number**, after some zeros. -/
theorem exists_zeros {digits : List Char} (run : IsRun digits) :
    ∃ zeros, digits = List.replicate zeros '0' ++ Nat.toDigits 10 (ofDigits digits) := by
  induction digits with
  | nil => exact absurd rfl run.ne_nil
  | cons c rest ih =>
    have others : ∀ c ∈ rest, c.isDigit = true := fun c mem =>
      run.isDigit c (List.mem_cons_of_mem _ mem)
    obtain ⟨d, small, rfl⟩ := exists_digitChar (run.isDigit c List.mem_cons_self)
    have value : ofDigits (d.digitChar :: rest) = Nat.ofDigitChars 10 rest d := by
      rw [ofDigits_eq, Nat.ofDigitChars_cons_digitChar_of_lt_ten small, Nat.mul_zero, Nat.zero_add]
    have single : Nat.toDigits 10 d = [d.digitChar] := Nat.toDigits_of_lt_base small
    obtain rfl | positive := Nat.eq_zero_or_pos d
    · -- a zero is the whole number, or it is one of the zeros before the number
      by_cases last : rest = []
      · subst last
        exact ⟨0, rfl⟩
      · obtain ⟨zeros, eq⟩ := ih ⟨last, others⟩
        refine ⟨zeros + 1, ?_⟩
        rw [value, ← ofDigits_eq, List.replicate_succ, List.cons_append, ← eq]
        rfl
    · refine ⟨0, ?_⟩
      rw [value, ← toDigits_append_eq others positive, single]
      rfl

/-- A run of digits that does not start with a zero in vain is the shortest one for its number. -/
theorem eq_toDigits_of_isWhole {digits : List Char} (whole : IsWhole digits) :
    digits = Nat.toDigits 10 (ofDigits digits) := by
  obtain ⟨zeros, eq⟩ := exists_zeros whole.isRun
  cases zeros with
  | zero => exact eq
  | succ zeros =>
    rw [List.replicate_succ, List.cons_append] at eq
    cases whole with
    | zero => rfl
    | leading ne _ => exact absurd (List.head_eq_of_cons_eq eq) ne

/-! ## Texts -/

/-- The text stands for the number: it is its digits, perhaps after zeros, and perhaps after a plus
sign. -/
def Spells (n : Nat) (text : String) : Prop :=
  ∃ sign zeros, (sign = "" ∨ sign = "+") ∧
    text = sign ++ String.ofList (List.replicate zeros '0') ++ toString n

theorem spells_toString (n : Nat) : Spells n (toString n) :=
  ⟨"", 0, .inl rfl, by simp⟩

/-- What stands after the sign is a run of digits. -/
theorem spells_iff {n : Nat} {cs : List Char} :
    Spells n (String.ofList cs) ↔
      ∃ digits, (cs = digits ∨ cs = '+' :: digits) ∧ IsRun digits ∧ ofDigits digits = n := by
  have chars (sign : String) (zeros : Nat) :
      (sign ++ String.ofList (List.replicate zeros '0') ++ toString n).toList
        = sign.toList ++ (List.replicate zeros '0' ++ Nat.toDigits 10 n) := by
    simp
  constructor
  · rintro ⟨sign, zeros, signed, text⟩
    have eq := congrArg String.toList text
    rw [String.toList_ofList, chars] at eq
    have value := (ofDigits_zeros_append zeros _).trans (ofDigits_toDigits n)
    refine ⟨_, ?_, isRun_zeros_append (isRun_toDigits n) zeros, value⟩
    obtain rfl | rfl := signed
    · exact .inl eq
    · exact .inr eq
  · rintro ⟨digits, signed, run, rfl⟩
    obtain ⟨zeros, eq⟩ := exists_zeros run
    obtain ⟨sign, known, signed⟩ : ∃ sign, (sign = "" ∨ sign = "+") ∧ cs = sign.toList ++ digits :=
      signed.elim (fun plain => ⟨"", .inl rfl, plain⟩) fun plus => ⟨"+", .inr rfl, plus⟩
    refine ⟨sign, zeros, known, String.toList_injective ?_⟩
    rw [String.toList_ofList, chars, ← eq, signed]

theorem checked_eq_some_iff {width n : Nat} {digits : List Char} :
    (if digits.isEmpty || !digits.all Char.isDigit then none
      else if ofDigits digits < 1 <<< width then some (ofDigits digits) else none) = some n ↔
      IsRun digits ∧ ofDigits digits = n ∧ n < 1 <<< width := by
  constructor
  · intro read
    split at read
    · cases read
    · next run =>
      split at read
      · next fits =>
        cases read
        simp only [Bool.or_eq_true, List.isEmpty_iff, Bool.not_eq_true', not_or,
          Bool.not_eq_false, List.all_eq_true] at run
        exact ⟨⟨run.1, run.2⟩, rfl, fits⟩
      · cases read
  · rintro ⟨run, rfl, fits⟩
    have all : digits.all Char.isDigit = true := List.all_eq_true.mpr run.isDigit
    simp only [all, List.isEmpty_eq_false_iff.mpr run.ne_nil, Bool.not_true, Bool.or_false,
      Bool.false_eq_true, if_false, if_pos fits]

/-- What is read as a number is a run of digits, after a plus sign or without one. -/
theorem natural?_eq_some_iff_run {width n : Nat} {cs : List Char} :
    natural? width cs = some n ↔ ∃ digits, (cs = digits ∨ cs = '+' :: digits) ∧
      IsRun digits ∧ ofDigits digits = n ∧ n < 1 <<< width := by
  have sign_ne {c : Char} (h : c.isDigit = true) : '+' ≠ c := by
    rintro rfl
    exact absurd h (by decide)
  unfold natural?
  split
  · next digits =>
    refine checked_eq_some_iff.trans ⟨fun run => ⟨digits, .inr rfl, run⟩, ?_⟩
    rintro ⟨_, rfl | eq, run⟩
    · exact absurd rfl (sign_ne (run.1.isDigit _ List.mem_cons_self))
    · exact List.tail_eq_of_cons_eq eq ▸ run
  · next unsigned =>
    refine checked_eq_some_iff.trans ⟨fun run => ⟨cs, .inl rfl, run⟩, ?_⟩
    rintro ⟨_, rfl | eq, run⟩
    · exact run
    · exact absurd eq (unsigned _)

/-- **The spellings of a number are the texts that are read as this number**, if it fits. -/
theorem natural?_eq_some_iff {width n : Nat} {cs : List Char} :
    natural? width cs = some n ↔ n < 1 <<< width ∧ Spells n (String.ofList cs) := by
  rw [natural?_eq_some_iff_run, spells_iff]
  constructor
  · rintro ⟨digits, signed, run, value, fits⟩
    exact ⟨fits, digits, signed, run, value⟩
  · rintro ⟨fits, digits, signed, run, value⟩
    exact ⟨digits, signed, run, value, fits⟩

end NodeProvisioner.Decimal
